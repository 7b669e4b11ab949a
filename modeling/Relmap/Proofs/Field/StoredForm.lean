import Relmap.Proofs.Field.WholeNumber
import Relmap.Proofs.Text.Caseless

/-!
# Whole numbers in a column, in whatever form

A database may hold a whole number in any width that is wide enough for it, or as its decimal text.
A typed read of the column sees the number and not its form: each of the reads gives what is told by
the number alone (`Results.ReadsNumber`), although every read takes the widths and the text apart in
its own way. The value of a field is made of what one typed read gives, so a field that is read as a
whole number, a text, a boolean or a decimal makes the same value of all forms
(`Field.ofColumn_of_readsNumber`).

The main statement is `Field.stored_form_unseen`.
-/

namespace Relmap

open Number (Fits Scaled Word intText readWord? toWord?)
open Outcome (bind_eq_error bind_eq_ok map_eq_ok)

/-! ### The forms of a number -/

namespace Value

/-- The value is the whole number `n`, in one of the four widths or as its decimal text. -/
inductive Numeral : Value → Int → Prop
  | whole {v : Value} {n : Int} (h : v.Whole n) : Numeral v n
  | digits (n : Int) : Numeral (.text (intText n)) n

variable {u : Value} {n : Int}

theorem Whole.isNull (h : u.Whole n) : u.isNull = false := by
  obtain ⟨w, m⟩ := h
  cases w <;> rfl

theorem Numeral.isNull (h : u.Numeral n) : u.isNull = false := by
  cases h with
  | whole h => exact h.isNull
  | digits => rfl

/-- As a number of sixty-four bits: a width is widened, a text is read. -/
theorem Numeral.toLong? (h : u.Numeral n) (fits : Fits 64 n) :
    u.toLong? = some (BitVec.ofInt 64 n) := by
  cases h with
  | whole h => exact (Results.toLong?_of_integer? (integer?_eq_some_iff.mpr h)).1
  | digits =>
    show readWord? 64 (Text.trim (intText n).toList) = _
    rw [Number.trim_intText, readWord?, Number.readInt?_intText, Option.bind_some, toWord?,
      if_pos fits]

theorem Numeral.display (h : u.Numeral n) : u.display = intText n := by
  cases h with
  | whole h =>
    obtain ⟨w, m⟩ := h
    cases w <;> rfl
  | digits => rfl

/-- The text of a number is no word in small letters. -/
theorem sameName_intText {word : String} (letters : ∃ c ∈ word.toList, 97 ≤ c.toNat)
    (small : Text.foldCase word = word.toList) (n : Int) :
    Text.sameName (intText n) word = false := by
  apply Bool.eq_false_iff.mpr
  intro same
  obtain ⟨c, mem, letter⟩ := letters
  rw [Text.sameName_iff, small] at same
  rw [← same] at mem
  obtain ⟨d, hd, rfl⟩ := List.mem_map.mp mem
  have low : d.toNat ≤ 57 := by
    rcases Number.mem_intText hd with rfl | digit
    · decide
    · simp [Number.isDigit, Char.le_def] at digit
      exact digit.2
  rcases Text.toLower_eq_self_or d with same | ⟨capital, -, -⟩
  · rw [same] at letter
    omega
  · omega

/-- As a boolean: whether the number is zero. -/
theorem Numeral.toBool? (h : u.Numeral n) (fits : Fits 64 n) : u.toBool? = some (n != 0) := by
  have long := h.toLong? fits
  have zero : (BitVec.ofInt 64 n != 0) = (n != 0) := by
    have number := Number.toInt_ofInt_of_fits (by decide) fits
    have iff : BitVec.ofInt 64 n = 0 ↔ n = 0 := by
      constructor
      · intro h
        rw [h] at number
        exact number.symm
      · rintro rfl
        rfl
    rw [Bool.eq_iff_iff, bne_iff_ne, bne_iff_ne, Ne, Ne, iff]
  have byNumber : u.toLong?.map (· != 0) = some (n != 0) := by rw [long, Option.map_some, zero]
  cases h with
  | whole h =>
    obtain ⟨w, m⟩ := h
    cases w <;> exact byNumber
  | digits =>
    have noTrue : Text.sameName (intText n) "true" = false :=
      sameName_intText ⟨'t', by decide⟩ (by decide) n
    have noFalse : Text.sameName (intText n) "false" = false :=
      sameName_intText ⟨'f', by decide⟩ (by decide) n
    rw [Value.toBool?, noTrue, noFalse]
    exact byNumber

/-- As a decimal number: one without places. -/
theorem Numeral.toDecimal? (h : u.Numeral n) (fits : Fits 64 n) :
    u.toDecimal? = some (.ofLong (BitVec.ofInt 64 n)) := by
  cases h with
  | whole h =>
    have number := integer?_eq_some_iff.mpr h
    obtain ⟨w, m⟩ := h
    have coerced : (w.value m).toDecimal? =
        (w.value m).integer?.map fun k => Scaled.ofLong (BitVec.ofInt 64 k) := by
      cases w <;> rfl
    rw [coerced, number, Option.map_some]
  | digits =>
    have read := Scaled.read?_intText (BitVec.ofInt 64 n)
    rw [Number.toInt_ofInt_of_fits (by decide) fits] at read
    show Scaled.read? (Text.trim (intText n).toList) = _
    rw [Number.trim_intText, read]

end Value

/-! ### Typed reads -/

namespace Results

/-- The column is the whole number `n`, in one of its forms. -/
def HoldsNumber (r : Results) (position : Nat) (n : Int) : Prop :=
  ∃ u, r.get position = .ok u ∧ u.Numeral n

/-- What the typed reads make of a column that is a whole number. -/
structure ReadsNumber (r : Results) (position : Nat) (n : Int) : Prop where
  /-- A byte has the low octet of the number. -/
  byte : r.getByte position = .ok (BitVec.ofInt 8 n)
  /-- A short number has the low sixteen bits. -/
  short : r.getShort position = .ok (BitVec.ofInt 16 n)
  /-- Thirty-two bits are the number, if it fits. -/
  int : Fits 32 n → ∃ m, r.getInt position = .ok m ∧ m.toInt = n
  /-- If it does not, there is a failure of the conversion. -/
  tooWide : ¬Fits 32 n → r.getInt position = .error (.conversion (.columnTooWide position n))
  /-- Sixty-four bits are the number. -/
  long : ∃ m, r.getLong position = .ok m ∧ m.toInt = n
  boolean : r.getBoolean position = .ok (n != 0)
  string : r.getString position = .ok (intText n)
  /-- A decimal has no places. -/
  decimal : r.getDecimal position = .ok (.ofLong (BitVec.ofInt 64 n))

variable {r r' : Results} {p p' : Nat} {n : Int}

/-- **The typed reads see the number and not its form.** -/
theorem readsNumber (holds : r.HoldsNumber p n) (fits : Fits 64 n) : r.ReadsNumber p n := by
  obtain ⟨u, hget, numeral⟩ := holds
  have long {target : String} : r.read p target Value.toLong? = .ok (BitVec.ofInt 64 n) :=
    (read_eq_ok hget).mpr (numeral.toLong? fits)
  have number : (BitVec.ofInt 64 n).toInt = n := Number.toInt_ofInt_of_fits (by decide) fits
  constructor
  case byte => exact map_eq_ok.mpr ⟨_, long, setWidth_ofInt (by decide) n⟩
  case short => exact map_eq_ok.mpr ⟨_, long, setWidth_ofInt (by decide) n⟩
  case int =>
    intro narrow
    refine ⟨BitVec.ofInt 32 n, ?_, Number.toInt_ofInt_of_fits (by decide) narrow⟩
    refine bind_eq_ok.mpr ⟨_, long, ?_⟩
    rw [number, toWord?, if_pos narrow]
    rfl
  case tooWide =>
    intro wide
    refine bind_eq_error.mpr (.inr ⟨_, long, ?_⟩)
    rw [number, toWord?, if_neg wide]
    rfl
  case long => exact ⟨_, long, number⟩
  case boolean => exact (read_eq_ok hget).mpr (numeral.toBool? fits)
  case string => exact (getString_eq_ok hget).mpr numeral.display
  case decimal => exact (read_eq_ok hget).mpr (numeral.toDecimal? fits)

end Results

/-- The kinds of values that a whole number is read as. -/
def Wire.readsNumbers : Wire → Bool
  | .text | .word _ | .bool | .decimal => true
  | _ => false

variable {r r' : Results} {p p' : Nat} {n : Int}

/-- A number that is read as one of these kinds is read as the same value wherever it is held. -/
theorem Wire.read_of_readsNumber {k : Wire} (hk : k.readsNumbers = true)
    (reads : r.ReadsNumber p n) (reads' : r'.ReadsNumber p' n) {w : Value}
    (h : k.read r p = .ok w) : k.read r' p' = .ok w := by
  cases k with
  | text =>
    rw [read, reads.string] at h
    rw [read, reads'.string, ← h]
  | bool =>
    rw [read, reads.boolean] at h
    rw [read, reads'.boolean, ← h]
  | decimal =>
    rw [read, reads.decimal] at h
    rw [read, reads'.decimal, ← h]
  | word width =>
    cases width with
    | byte =>
      rw [read, reads.byte] at h
      rw [read, reads'.byte, ← h]
    | short =>
      rw [read, reads.short] at h
      rw [read, reads'.short, ← h]
    | int =>
      by_cases fits : Fits 32 n
      · obtain ⟨m, first, number⟩ := reads.int fits
        obtain ⟨m', second, number'⟩ := reads'.int fits
        obtain rfl : m = m' := BitVec.eq_of_toInt_eq (number.trans number'.symm)
        rw [read, first] at h
        rw [read, second, ← h]
      · rw [read, reads.tooWide fits] at h
        cases h
    | long =>
      obtain ⟨m, first, number⟩ := reads.long
      obtain ⟨m', second, number'⟩ := reads'.long
      obtain rfl : m = m' := BitVec.eq_of_toInt_eq (number.trans number'.symm)
      rw [read, first] at h
      rw [read, second, ← h]
  | _ => cases hk

/-! ### Fields -/

/-- The types whose columns are whole numbers, under some dialect at least. -/
def DataType.numberTypes : List DataType :=
  [.byte, .byteObj, .short, .shortObj, .integer, .integerObj, .long, .longObj,
    .boolean, .booleanObj, .booleanInteger, .enumInteger, .dateInteger, .dateLong, .bigInteger]

/-- Columns of these types are read as a whole number, a boolean or a text. -/
theorem DataType.readsNumbers_of_mem {t : DataType} (ht : t ∈ numberTypes) {c : Codec}
    (codec : t.codec? = some c) : c.wire.readsNumbers = true := by
  have all : ∀ t ∈ numberTypes, t.codec?.all (·.wire.readsNumbers) = true := by decide
  have here := all t ht
  rwa [codec] at here

namespace Field

variable {d : FieldDecl} {dialect : Dialect} {f : Field} {c : Codec} {a : Value}

/-- A field makes the same of a number wherever it is held. -/
theorem ofColumn_of_readsNumber (built : d.toField dialect = .ok f) (codec : d.type.codec? = some c)
    (hc : c.wire.readsNumbers = true) (fits : Fits 64 n) (holds : r.HoldsNumber p n)
    (holds' : r'.HoldsNumber p' n) (h : f.ofColumn r p = .ok a) : f.ofColumn r' p' = .ok a := by
  have reads := Results.readsNumber holds fits
  have reads' := Results.readsNumber holds' fits
  obtain ⟨u, hget, numeral⟩ := holds
  obtain ⟨u', hget', numeral'⟩ := holds'
  obtain ⟨column, allowed⟩ := ofColumn_eq_ok.mp h
  refine ofColumn_eq_ok.mpr ⟨?_, allowed⟩
  rw [FieldDecl.converter_of_toField built codec] at column ⊢
  obtain ⟨w, read, given⟩ := (Converter.ofColumn_eq_ok hget numeral.isNull).mp column
  refine (Converter.ofColumn_eq_ok hget' numeral'.isNull).mpr
    ⟨w, ?_, Converter.ofStored_position (q := p') given⟩
  obtain plain | ⟨_, rfl, layered⟩ | ⟨_, rfl, layered⟩ := dialect.converter_cases c
  · rw [plain] at read ⊢
    have read : c.wire.read r p = .ok w := (c.readStored_eq_read r p).symm.trans read
    exact (c.readStored_eq_read r' p').trans (Wire.read_of_readsNumber hc reads reads' read)
  · rw [layered] at read ⊢
    exact Wire.read_of_readsNumber (k := .word .byte) rfl reads reads' read
  · cases hc

/-- **A whole number is the same in whatever form it is stored.** Wherever it is held, in a width
that is wide enough or as its digits, the typed reads give what the number tells: its low eight or
sixteen bits, the number itself in thirty-two bits or the failure of the conversion, the number in
sixty-four bits, whether it is not zero, its digits, and a decimal without places. A field of whole
numbers, of booleans (kept as such or as numbers), of ordinals, of dates that are kept as a number
or of big integers gives the same value of all the forms, or of none of them. -/
theorem stored_form_unseen (fits : Fits 64 n) (holds : r.HoldsNumber p n)
    (holds' : r'.HoldsNumber p' n) :
    r.ReadsNumber p n ∧ r'.ReadsNumber p' n ∧
    ∀ (d : FieldDecl) (dialect : Dialect) (f : Field), d.toField dialect = .ok f →
      d.type ∈ DataType.numberTypes → ∀ a, f.ofColumn r p = .ok a ↔ f.ofColumn r' p' = .ok a := by
  refine ⟨Results.readsNumber holds fits, Results.readsNumber holds' fits, ?_⟩
  intro d dialect f built type a
  obtain ⟨c, declared⟩ := FieldDecl.built_of_toField built
  have hc := DataType.readsNumbers_of_mem type declared.codec
  constructor
  · exact ofColumn_of_readsNumber built declared.codec hc fits holds holds'
  · exact ofColumn_of_readsNumber built declared.codec hc fits holds' holds

/-- Three hundred, which takes a short number or its digits, is read in full as a long number; a
field of bytes gives its low octet of both forms. -/
theorem three_hundred_in_two_forms :
    let words := Results.ofRow [("level", .short 300)]
    let digits := Results.ofRow [("id", .long 1), ("level", .text (intText 300))]
    (∃ m, words.getLong 0 = .ok m ∧ m.toInt = 300) ∧
    (∃ m, digits.getLong 1 = .ok m ∧ m.toInt = 300) ∧
    ∃ f, FieldDecl.toField { name := "level", type := .byte } .derby = .ok f ∧
      f.ofColumn words 0 = .ok (.byte 44) ∧ f.ofColumn digits 1 = .ok (.byte 44) := by
  intro words digits
  have short : words.HoldsNumber 0 300 := ⟨_, rfl, .whole (.word .short 300)⟩
  have text : digits.HoldsNumber 1 300 := ⟨_, rfl, .digits 300⟩
  obtain ⟨reads, reads', fields⟩ := stored_form_unseen (by decide) short text
  refine ⟨reads.long, reads'.long, ?_⟩
  obtain ⟨f, built⟩ : ∃ f, FieldDecl.toField { name := "level", type := .byte } .derby = .ok f :=
    ⟨_, rfl⟩
  have low : f.ofColumn words 0 = .ok (.byte 44) := by
    cases built
    rfl
  exact ⟨f, built, low, (fields _ _ f built (by decide) _).mp low⟩

end Field

end Relmap
