import Relmap.Proofs.Field.Default
import Relmap.Proofs.Json.Numbers

/-!
# What is stored can be read

A field reads what it has stored, with exceptions that its type tells (`FieldDecl.Readable`,
`Field.readable_iff`): a constant that the enumeration does not declare is stored all the same, and
read only where there is one for unknown constants; the leap second at the end of the calendar is
stored as milliseconds that no date has; a pattern may write dates that it cannot read; and a data
tree may be deeper than the reader goes. The numbers in a data tree are never the reason
(`FieldDecl.readable_inRange_iff`).
-/

namespace Relmap

open Number (Scaled Word readWord? toWord?)
open Calendar (Timestamp)
open Outcome (bind_eq_ok map_eq_ok pure_eq_ok)

namespace FieldDecl

/-- What has to hold for the stored form of a value to be read. -/
structure Readable (d : FieldDecl) (v : Value) : Prop where
  /-- A constant kept by name has a name that is declared, or there is one for unknown names. -/
  name : d.type = .enumString → ∀ k, v = .enum k →
    k.name ∈ d.enumConstants ∨ d.unknownEnum.isSome = true
  /-- A constant kept by ordinal has the ordinal of one that is declared, or there is one for
  unknown ordinals. -/
  ordinal : d.type = .enumInteger → ∀ k, v = .enum k →
    (∃ i < d.enumConstants.length, BitVec.ofNat 32 i = k.ordinal) ∨ d.unknownEnum.isSome = true
  /-- A date kept as milliseconds is before the end of the calendar. -/
  instant : d.type = .dateLong → ∀ t, v = .timestamp t → t.millis < Timestamp.endMilli
  /-- What a format of its own writes for a date, it reads. -/
  date : d.type = .dateString → ∀ format p t s, d.format = some format →
    Calendar.Pattern.ofText? format = some p → v = .timestamp t → p.write? t = some s →
    ∃ t', Field.readTime? p.items (Text.trim s.toList) = some t'
  /-- The numbers of a data tree are read, and it is not deeper than the reader goes. -/
  tree : d.type = .serializable → ∀ j, v = .json j → j.Legible ∧ j.depth ≤ Json.depthLimit

/-- Nothing has to hold for types other than these. -/
theorem readable_of_type {d : FieldDecl} {v : Value} (h : d.type ≠ .enumString ∧
    d.type ≠ .enumInteger ∧ d.type ≠ .dateLong ∧ d.type ≠ .dateString ∧
    d.type ≠ .serializable) : d.Readable v :=
  ⟨fun type => (h.1 type).elim, fun type => (h.2.1 type).elim, fun type => (h.2.2.1 type).elim,
    fun type => (h.2.2.2.1 type).elim, fun type => (h.2.2.2.2 type).elim⟩

end FieldDecl

/-! ### Enumerations -/

namespace Enumeration

variable {e : Enumeration}

theorem isSome_byName?_iff {name : String} : (e.byName? name).isSome = true ↔ name ∈ e.names := by
  rw [← Option.isNone_eq_false_iff, ← Bool.not_eq_true, Option.isNone_iff_eq_none,
    byName?_eq_none_iff, not_not]

theorem isSome_byOrdinal?_iff {n : Word 32} :
    (e.byOrdinal? n).isSome = true ↔ ∃ i < e.names.length, BitVec.ofNat 32 i = n := by
  have ordinals : n ∈ e.constants.map (·.ordinal) ↔
      ∃ i < e.names.length, BitVec.ofNat 32 i = n := by
    rw [ordinals_eq]
    simp
  rw [← ordinals, byOrdinal?, List.find?_isSome]
  simp

end Enumeration

namespace Field

variable {d : FieldDecl} {dialect : Dialect} {c : Codec} {f : Field}

theorem resolve_ok_iff {e : Enumeration} {found : Option EnumConstant} {stored : String} :
    (∃ x, f.resolve e found stored = .ok x) ↔
      found.isSome = true ∨ (f.unknownEnum.bind e.byName?).isSome = true := by
  unfold resolve
  cases found with
  | some k => simp
  | none => cases f.unknownEnum.bind e.byName? <;> simp

end Field

namespace FieldDecl

variable {d : FieldDecl} {dialect : Dialect} {c : Codec} {f : Field} {v w : Value}

/-- The constant for unknown constants is one that is declared. -/
theorem isSome_fallback {format : FieldFormat} {name : String} (h : d.readConstants = .ok format)
    (fallback : d.unknownEnum = some name) :
    ((Enumeration.mk d.enumConstants).byName? name).isSome = true := by
  unfold readConstants at h
  obtain ⟨⟨⟩, -, h⟩ := bind_eq_ok.mp h
  obtain ⟨⟨⟩, -, h⟩ := bind_eq_ok.mp h
  dsimp only at h
  rw [fallback] at h
  obtain ⟨⟨⟩, known, -⟩ := bind_eq_ok.mp h
  simpa using refuseIf_eq_ok.mp known

/-- In a field that is built, a constant for unknown constants is found if one is named. -/
theorem Built.fallback_isSome (built : d.Built dialect c f)
    (hc : c = .enumString ∨ c = .enumInteger) :
    (f.unknownEnum.bind (Enumeration.mk d.enumConstants).byName?).isSome =
      d.unknownEnum.isSome := by
  have format : some <$> d.readConstants = .ok f.formatting := by
    rcases hc with rfl | rfl <;> exact built.format
  obtain ⟨format, constants, -⟩ := map_eq_ok.mp format
  obtain rfl := built.decl
  cases fallback : f.unknownEnum with
  | none => rfl
  | some name => exact isSome_fallback constants fallback

/-- In a field that is built, a constant that is looked up is found, or there is another for it,
or reading fails. -/
theorem Built.resolve_ok_iff (built : d.Built dialect c f) (hc : c = .enumString ∨ c = .enumInteger)
    {found : Option EnumConstant} {stored : String} :
    (∃ x, f.resolve ⟨d.enumConstants⟩ found stored = .ok x) ↔
      found.isSome = true ∨ d.unknownEnum.isSome = true := by
  rw [Field.resolve_ok_iff, built.fallback_isSome hc]

end FieldDecl

/-! ### Codecs -/

namespace Codec

variable {d : FieldDecl} {dialect : Dialect} {c : Codec} {f : Field} {v w : Value} {position : Nat}

theorem readable_enumString_iff (built : d.Built dialect .enumString f) {k : EnumConstant} :
    (∃ x, Codec.ofStored .enumString f (.text k.name) position = .ok x) ↔
      k.name ∈ d.enumConstants ∨ d.unknownEnum.isSome = true := by
  show (∃ x, f.ofConstantName k.name = .ok x) ↔ _
  rw [built.ofConstantName, built.resolve_ok_iff (.inl rfl), Enumeration.isSome_byName?_iff]

theorem readable_enumInteger_iff (built : d.Built dialect .enumInteger f) {k : EnumConstant} :
    (∃ x, Codec.ofStored .enumInteger f (.int k.ordinal) position = .ok x) ↔
      (∃ i < d.enumConstants.length, BitVec.ofNat 32 i = k.ordinal) ∨
        d.unknownEnum.isSome = true := by
  rw [ofStored_ordinal position rfl, built.ofOrdinal, built.resolve_ok_iff (.inr rfl),
    Enumeration.isSome_byOrdinal?_iff]

theorem readable_dateLong_iff {t : Timestamp} :
    (∃ x, Codec.ofStored .dateLong f (.long (BitVec.ofInt 64 t.millis)) position = .ok x) ↔
      t.millis < Timestamp.endMilli := by
  have first : Timestamp.firstMilli ≤ t.millis := by
    have lo := t.first_le
    rw [Timestamp.firstMilli, Timestamp.millis]
    omega
  have read : Codec.ofStored .dateLong f (.long (BitVec.ofInt 64 t.millis)) position =
      f.ofMillis t.millis := by
    show f.ofMillis (BitVec.ofInt 64 t.millis).toInt = _
    rw [t.toInt_millis]
  have bounds := Timestamp.exists_ofMillis?_iff (n := t.millis)
  rw [read, Field.ofMillis]
  cases found : Timestamp.ofMillis? t.millis with
  | some t' =>
    rw [found] at bounds
    simpa using (bounds.mp ⟨t', rfl⟩).2
  | none =>
    rw [found] at bounds
    simpa [first] using bounds

theorem readable_dateString_iff {s : String} :
    (∃ x, Codec.ofStored .dateString f (.text s) position = .ok x) ↔
      ∃ t, Field.readTime? f.datePattern.items (Text.trim s.toList) = some t := by
  constructor
  · rintro ⟨x, read⟩
    obtain ⟨s', text, parsed⟩ := bind_eq_ok.mp read
    obtain rfl : s = s' := Option.some.inj (Field.expect_eq_ok.mp text)
    obtain ⟨t, time, -⟩ := bind_eq_ok.mp parsed
    exact ⟨t, Field.parse_eq_ok.mp time⟩
  · rintro ⟨t, read⟩
    exact ⟨.timestamp t, bind_eq_ok.mpr ⟨s, rfl,
      bind_eq_ok.mpr ⟨t, Field.parse_eq_ok.mpr read, rfl⟩⟩⟩

theorem readable_serializable_iff {j : Json} :
    (∃ x, Codec.ofStored .serializable f (.bytes (Text.Utf8.encode j.text.toList)) position =
      .ok x) ↔ j.Legible ∧ j.depth ≤ Json.depthLimit := by
  have octets : Json.readBytes? (Text.Utf8.encode j.text.toList) = Json.read? j.chars := by
    rw [Json.readBytes?, Text.Utf8.decode_encode, Json.text, String.toList_ofList]
  show (∃ x, f.ofSerialized position (Text.Utf8.encode j.text.toList) = .ok x) ↔ _
  rw [Field.ofSerialized, octets, ← Json.isSome_read?_chars_iff]
  cases Json.read? j.chars <;> simp

/-- A whole number of any kind fits a hundred and twenty-eight bits. -/
theorem fits_wholeNumber? {n : Int} (h : v.wholeNumber? = some n) : Number.Fits 128 n := by
  have widen {bits : Nat} (few : bits ≤ 64) (m : Word bits) : Number.Fits 128 m.toInt := by
    have lo := BitVec.two_mul_toInt_lt (x := m)
    have hi := BitVec.le_two_mul_toInt (x := m)
    have bound : (2 : Int) ^ bits ≤ 2 ^ 64 := by
      exact_mod_cast Nat.pow_le_pow_right (by decide) few
    constructor <;> omega
  cases v with
  | bigInteger m =>
    obtain rfl := Option.some.inj h
    exact Number.fits_toInt m
  | byte m | short m | int m | long m =>
    obtain rfl := Option.some.inj h
    exact widen (by decide) m
  | _ => cases h

/-- What is stored by a codec of any other type is read. -/
theorem exists_ofStored (free : c ≠ .enumString ∧ c ≠ .enumInteger ∧ c ≠ .dateLong ∧
    c ≠ .dateString ∧ c ≠ .serializable) (stored : c.toStored f v = .ok w) :
    ∃ x, c.ofStored f w position = .ok x := by
  cases c with
  | stringBytes =>
    obtain ⟨s, -, rfl⟩ := map_eq_ok.mp stored
    exact ⟨.text s, (keeps_stringBytes s).gives position⟩
  | booleanInteger =>
    obtain ⟨b, -, rfl⟩ := map_eq_ok.mp stored
    cases b <;> exact ⟨_, rfl⟩
  | integral width primitive =>
    obtain ⟨n, -, rfl⟩ := map_eq_ok.mp stored
    exact ⟨_, (keeps_integral width primitive n).gives position⟩
  | dateInteger =>
    obtain ⟨t, -, rest⟩ := bind_eq_ok.mp stored
    obtain ⟨n, -, rest⟩ := bind_eq_ok.mp rest
    obtain rfl := pure_eq_ok.mp rest
    obtain ⟨v, given, -⟩ := returns_dateInteger (f := f) n
    exact ⟨v, given⟩
  | uuid =>
    obtain ⟨u, -, rfl⟩ := map_eq_ok.mp stored
    exact ⟨_, (keeps_uuid u).gives position⟩
  | bigInteger =>
    obtain ⟨n, number, rfl⟩ := map_eq_ok.mp stored
    have fits := fits_wholeNumber? (Field.expect_eq_ok.mp number)
    have read : readWord? 128 (Number.intText n).toList = some (BitVec.ofInt 128 n) := by
      rw [readWord?, Number.readInt?_intText, Option.bind_some, toWord?, if_pos fits]
    exact ⟨_, bind_eq_ok.mpr ⟨Number.intText n, rfl,
      bind_eq_ok.mpr ⟨_, Field.parse_some (Number.trim_intText n) read, rfl⟩⟩⟩
  | bigDecimal =>
    obtain ⟨d, -, rfl⟩ := map_eq_ok.mp stored
    exact ⟨_, bind_eq_ok.mpr ⟨d.text, rfl,
      bind_eq_ok.mpr ⟨_, Field.parse_some d.trim_text d.read?_text_unsigned, rfl⟩⟩⟩
  | enumString => exact absurd rfl free.1
  | enumInteger => exact absurd rfl free.2.1
  | dateLong => exact absurd rfl free.2.2.1
  | dateString => exact absurd rfl free.2.2.2.1
  | serializable => exact absurd rfl free.2.2.2.2
  | _ =>
    obtain ⟨_, -, rfl⟩ := map_eq_ok.mp stored
    exact ⟨_, rfl⟩

end Codec

/-! ### Fields -/

namespace FieldDecl

variable {d : FieldDecl} {dialect : Dialect} {c : Codec} {f : Field} {v w : Value}

theorem readable_enumString_iff (type : d.type = .enumString) {k : EnumConstant} :
    d.Readable (.enum k) ↔ k.name ∈ d.enumConstants ∨ d.unknownEnum.isSome = true := by
  refine ⟨fun h => h.name type k rfl, fun known => ⟨?_, ?_, ?_, ?_, ?_⟩⟩ <;> simp_all

theorem readable_enumInteger_iff (type : d.type = .enumInteger) {k : EnumConstant} :
    d.Readable (.enum k) ↔ (∃ i < d.enumConstants.length, BitVec.ofNat 32 i = k.ordinal) ∨
      d.unknownEnum.isSome = true := by
  refine ⟨fun h => h.ordinal type k rfl, fun known => ⟨?_, ?_, ?_, ?_, ?_⟩⟩ <;> simp_all

theorem readable_dateLong_iff (type : d.type = .dateLong) {t : Timestamp} :
    d.Readable (.timestamp t) ↔ t.millis < Timestamp.endMilli := by
  refine ⟨fun h => h.instant type t rfl, fun known => ⟨?_, ?_, ?_, ?_, ?_⟩⟩ <;> simp_all

theorem readable_serializable_iff (type : d.type = .serializable) {j : Json} :
    d.Readable (.json j) ↔ j.Legible ∧ j.depth ≤ Json.depthLimit := by
  refine ⟨fun h => h.tree type j rfl, fun known => ⟨?_, ?_, ?_, ?_, ?_⟩⟩ <;> simp_all

/-- With the numbers that are kept, how deep a data tree is decides alone. -/
theorem readable_inRange_iff (type : d.type = .serializable) {j : Json} (numbers : j.InRange) :
    d.Readable (.json j) ↔ j.depth ≤ Json.depthLimit :=
  (readable_serializable_iff type).trans (and_iff_right numbers.legible)

/-- A date without a format of its own is always read. -/
theorem readable_dateString_iff (built : d.Built dialect .dateString f)
    (type : d.type = .dateString) {t : Timestamp} {s : String}
    (written : f.datePattern.write? t = some s) : d.Readable (.timestamp t) ↔
      ∃ t', Field.readTime? f.datePattern.items (Text.trim s.toList) = some t' := by
  rcases built.datePattern (.inr rfl) with ⟨none, standard⟩ | ⟨format, some, parsed⟩
  · rw [standard] at written ⊢
    have text : t.text = s :=
      Option.some.inj ((Calendar.Pattern.write?_standard t).symm.trans written)
    subst text
    refine iff_of_true ⟨?_, ?_, ?_, ?_, ?_⟩ ⟨t, Calendar.readTime?_text t⟩ <;> simp [type, none]
  · constructor
    · intro h
      exact h.date type format f.datePattern t s some parsed rfl written
    · intro again
      refine ⟨by simp [type], by simp [type], by simp [type], ?_, by simp [type]⟩
      intro _ format' p t' s' some' parsed' same written'
      obtain rfl := Option.some.inj (some.symm.trans some')
      obtain rfl := Option.some.inj (parsed.symm.trans parsed')
      obtain rfl := Value.timestamp.inj same
      obtain rfl := Option.some.inj (written.symm.trans written')
      exact again

/-- What a codec without layers has stored is read under the conditions of its type. -/
theorem readable_codec_iff (built : d.Built dialect c f) (stored : c.toStored f v = .ok w)
    (position : Nat) : (∃ x, c.ofStored f w position = .ok x) ↔ d.Readable v := by
  have type : c.type = d.type := Codec.codec?_eq_some_iff.mp built.codec
  have other {k : Codec} (h : c ≠ k) : d.type ≠ k.type :=
    mt (Codec.eq_iff_of_codec? built.codec).mpr h
  by_cases byName : c = .enumString
  · subst byName
    obtain ⟨k, picked, rfl⟩ := map_eq_ok.mp stored
    obtain rfl := Value.enum?_eq_some.mp (Field.expect_eq_ok.mp picked)
    rw [readable_enumString_iff type.symm]
    exact Codec.readable_enumString_iff built
  by_cases byOrdinal : c = .enumInteger
  · subst byOrdinal
    obtain ⟨k, picked, rfl⟩ := map_eq_ok.mp stored
    obtain rfl := Value.enum?_eq_some.mp (Field.expect_eq_ok.mp picked)
    rw [readable_enumInteger_iff type.symm]
    exact Codec.readable_enumInteger_iff built
  by_cases long : c = .dateLong
  · subst long
    obtain ⟨t, picked, rfl⟩ := map_eq_ok.mp stored
    obtain rfl := Value.timestamp?_eq_some.mp (Field.expect_eq_ok.mp picked)
    rw [readable_dateLong_iff type.symm]
    exact Codec.readable_dateLong_iff
  by_cases date : c = .dateString
  · subst date
    obtain ⟨t, picked, rest⟩ := bind_eq_ok.mp stored
    obtain rfl := Value.timestamp?_eq_some.mp (Field.expect_eq_ok.mp picked)
    obtain ⟨s, written, rest⟩ := bind_eq_ok.mp rest
    obtain rfl := pure_eq_ok.mp rest
    rw [readable_dateString_iff built type.symm (Field.timeText_eq_ok.mp written)]
    exact Codec.readable_dateString_iff
  by_cases tree : c = .serializable
  · subst tree
    obtain ⟨j, picked, rfl⟩ := map_eq_ok.mp stored
    obtain rfl := Value.json?_eq_some.mp (Field.expect_eq_ok.mp picked)
    rw [readable_serializable_iff type.symm]
    exact Codec.readable_serializable_iff
  exact iff_of_true (Codec.exists_ofStored ⟨byName, byOrdinal, long, date, tree⟩ stored)
    (readable_of_type ⟨other byName, other byOrdinal, other long, other date, other tree⟩)

/-- What a converter has stored is read under the conditions of its type. -/
theorem readable_converter_iff (built : d.Built dialect c f)
    (stored : (dialect.converter c).toStored f v = .ok w) (position : Nat) :
    (∃ x, (dialect.converter c).ofStored f w position = .ok x) ↔ d.Readable v := by
  have type : c.type = d.type := Codec.codec?_eq_some_iff.mp built.codec
  obtain plain | ⟨p, rfl, layered⟩ | ⟨p, rfl, layered⟩ := dialect.converter_cases c
  · rw [plain] at stored ⊢
    exact readable_codec_iff built stored position
  · rw [layered] at stored ⊢
    obtain ⟨b, -, rfl⟩ := map_eq_ok.mp stored
    refine iff_of_true ⟨_, rfl⟩ (readable_of_type ?_)
    rw [← type]
    cases p <;> simp [Codec.type]
  · rw [layered] at stored ⊢
    obtain ⟨a, inner, rfl⟩ := map_eq_ok.mp stored
    obtain ⟨c, -, rfl⟩ := map_eq_ok.mp inner
    refine iff_of_true ⟨.char c, bind_eq_ok.mpr ⟨c, f.parseChar_ofList c, rfl⟩⟩
      (readable_of_type ?_)
    rw [← type]
    cases p <;> simp [Codec.type]

end FieldDecl

/-- What a field that is built has stored for a value is read by the same field exactly under the
conditions of its type. Of a data tree whose numbers are whole ones of up to sixty-four bits and
finite fractions, nothing but its depth decides. -/
theorem Field.readable_iff {d : FieldDecl} {dialect : Dialect} {f : Field} {v w : Value}
    (built : d.toField dialect = .ok f) (stored : f.toStored v = .ok w) (position : Nat) :
    ((∃ x, f.ofStored w position = .ok x) ↔ d.Readable v) ∧
    ∀ j : Json, d.type = .serializable → v = .json j → j.InRange →
      ((∃ x, f.ofStored w position = .ok x) ↔ j.depth ≤ Json.depthLimit) := by
  have readable : (∃ x, f.ofStored w position = .ok x) ↔ d.Readable v := by
    obtain ⟨c, made⟩ := FieldDecl.built_of_toField built
    rcases toStored_cases stored with ⟨rfl, rfl⟩ | ⟨-, stored⟩
    · refine iff_of_true ⟨.null, rfl⟩ ⟨?_, ?_, ?_, ?_, ?_⟩ <;> simp
    · have nonnull : w.isNull = false := (Converter.toStored_carries stored).nonnull
      rw [ofStored_of_nonnull nonnull, made.converter]
      exact FieldDecl.readable_converter_iff made (made.converter ▸ stored) position
  refine ⟨readable, ?_⟩
  rintro j type rfl numbers
  exact readable.trans (FieldDecl.readable_inRange_iff type numbers)

/-- A constant that is not declared is read where there is one for unknown constants, and the
largest whole number of a data tree is read. -/
theorem Field.fallback_and_largest_number_read :
    (∃ f w x, FieldDecl.toField
          { name := "status", type := .enumString, enumConstants := ["OPEN", "CLOSED"],
            unknownEnum := some "OPEN" } .sqlite = .ok f ∧
      f.toStored (.enum ⟨"LOST", 7⟩) = .ok w ∧ f.ofStored w 0 = .ok x) ∧
    ∃ f w x, FieldDecl.toField { name := "tree", type := .serializable } .sqlite = .ok f ∧
      f.toStored (.json (.array [.number (.natural (2 ^ 64 - 1))])) = .ok w ∧
      f.ofStored w 0 = .ok x := by
  constructor
  · obtain ⟨f, w, built, stored⟩ : ∃ f w, FieldDecl.toField
          { name := "status", type := .enumString, enumConstants := ["OPEN", "CLOSED"],
            unknownEnum := some "OPEN" } .sqlite = .ok f ∧
        f.toStored (.enum ⟨"LOST", 7⟩) = .ok w := ⟨_, _, rfl, rfl⟩
    obtain ⟨x, read⟩ := (Field.readable_iff built stored 0).1.mpr
      ((FieldDecl.readable_enumString_iff rfl).mpr (.inr rfl))
    exact ⟨f, w, x, built, stored, read⟩
  · obtain ⟨f, w, built, stored⟩ : ∃ f w,
        FieldDecl.toField { name := "tree", type := .serializable } .sqlite = .ok f ∧
        f.toStored (.json (.array [.number (.natural (2 ^ 64 - 1))])) = .ok w := ⟨_, _, rfl, rfl⟩
    have numbers : (Json.array [.number (.natural (2 ^ 64 - 1))]).InRange :=
      ⟨Nat.sub_lt (by decide) (by decide), trivial⟩
    obtain ⟨x, read⟩ := ((Field.readable_iff built stored 0).2 _ rfl rfl numbers).mpr (by decide)
    exact ⟨f, w, x, built, stored, read⟩

/-- A constant that is not declared is stored by its name, and its name is not read again. -/
theorem Field.undeclared_constant_lost :
    ∃ f, FieldDecl.toField
          { name := "status", type := .enumString, enumConstants := ["OPEN", "CLOSED"] } .sqlite =
            .ok f ∧
      f.toStored (.enum ⟨"LOST", 7⟩) = .ok (.text "LOST") ∧
      f.ofStored (.text "LOST") 0 = .error (.conversion (.unknownConstant "status" "LOST")) :=
  ⟨_, rfl, rfl, rfl⟩

end Relmap
