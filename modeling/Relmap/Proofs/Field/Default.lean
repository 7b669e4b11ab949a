import Relmap.Proofs.Calendar.Standard
import Relmap.Proofs.Field.Bindable
import Relmap.Proofs.Field.Column
import Relmap.Proofs.Field.Lookup
import Relmap.Proofs.Field.RoundTrip

/-!
# Defaults that come back

The stored default of a field gives a default value of the program, and that value is stored as the
same default again, with four exceptions (`FieldDecl.default_returns_iff`): a single character where
characters travel as text, a count of milliseconds outside the calendar, a date whose text by the
pattern of the field reads as no date or as another one, and a decimal that is a negative zero.
Every other type keeps the value that the default was read as (`Converter.Keeps`).
-/

namespace Relmap

open Number (Scaled Word readWord? toWord?)
open Calendar (Timestamp)
open Outcome (bind_eq_ok map_eq_ok pure_eq_ok)

/-- What is stored as `w` gives a value that is stored as `w` again. -/
def Converter.Returns (c : Converter) (f : Field) (w : Value) : Prop :=
  ∃ v, c.ofStored f w 0 = .ok v ∧ c.toStored f v = .ok w

/-- A converter is for values other than null. -/
theorem Converter.exists_toStored_null (c : Converter) (f : Field) :
    ∃ e, c.toStored f .null = .error e := by
  obtain ⟨c, layers⟩ := c
  show ∃ e, toStoredThrough c f .null layers = .error e
  induction layers with
  | nil => cases c <;> exact ⟨_, rfl⟩
  | cons a layers ih =>
    obtain ⟨e, failed⟩ := ih
    cases a with
    | booleanNumber => exact ⟨_, rfl⟩
    | forwarding _ | retyped _ _ => exact ⟨e, failed⟩
    | characterCompat =>
      refine ⟨e, ?_⟩
      show charAsText <$> toStoredThrough c f .null layers = _
      rw [failed]
      rfl

theorem Converter.Keeps.returns {c : Converter} {f : Field} {v w : Value} (h : c.Keeps f v w) :
    c.Returns f w :=
  ⟨v, h.gives 0, h.stores⟩

theorem Field.timeText_eq_ok {f : Field} {t : Timestamp} {s : String} :
    f.timeText t = .ok s ↔ f.datePattern.write? t = some s := by
  unfold timeText
  cases f.datePattern.write? t with
  | none => exact ⟨fun h => (nomatch h), fun h => (nomatch h)⟩
  | some s => exact pure_eq_ok.trans Option.some_inj.symm

/-! ### Codecs -/

namespace Codec

open Converter (Keeps Returns)

variable {f : Field}

theorem returns_booleanInteger (b : Bool) : Returns (.plain .booleanInteger) f (boolInt b) := by
  cases b with
  | false => exact ⟨.bool false, rfl, rfl⟩
  | true => exact ⟨.bool true, rfl, rfl⟩

/-- A count of milliseconds comes back if there is a timestamp of it. -/
theorem returns_dateLong_iff {n : Word 64} : Returns (.plain .dateLong) f (.long n) ↔
    Timestamp.firstMilli ≤ n.toInt ∧ n.toInt < Timestamp.endMilli := by
  rw [← Timestamp.exists_ofMillis?_iff]
  constructor
  · rintro ⟨v, read, -⟩
    obtain ⟨m, number, time⟩ := bind_eq_ok.mp read
    obtain rfl : n.toInt = m := Option.some.inj (Field.expect_eq_ok.mp number)
    unfold Field.ofMillis at time
    split at time
    next t found => exact ⟨t, found⟩
    next => cases time
  · rintro ⟨t, found⟩
    refine ⟨.timestamp t, bind_eq_ok.mpr ⟨n.toInt, rfl, ?_⟩, ?_⟩
    · rw [Field.ofMillis, found]
    · show Except.ok (Value.long (BitVec.ofInt 64 t.millis)) = _
      rw [Timestamp.millis_of_ofMillis? found, BitVec.ofInt_toInt]

/-- A count of seconds of thirty-two bits comes back. -/
theorem returns_dateInteger (n : Word 32) : Returns (.plain .dateInteger) f (.int n) := by
  obtain ⟨t, seconds, whole⟩ := Timestamp.exists_ofSeconds? (Number.fits_toInt n)
  have kept := (keeps_dateInteger (f := f) whole (seconds ▸ Number.fits_toInt n)).returns
  rwa [seconds, BitVec.ofInt_toInt] at kept

/-- A date kept as text comes back if the pattern reads it as a date that it writes the same. -/
theorem returns_dateString_iff {s : String} : Returns (.plain .dateString) f (.text s) ↔
    ∃ t, Field.readTime? f.datePattern.items (Text.trim s.toList) = some t ∧
      f.datePattern.write? t = some s := by
  constructor
  · rintro ⟨v, read, stores⟩
    obtain ⟨s', text, parsed⟩ := bind_eq_ok.mp read
    obtain rfl : s = s' := Option.some.inj (Field.expect_eq_ok.mp text)
    obtain ⟨t, time, rest⟩ := bind_eq_ok.mp parsed
    obtain rfl := pure_eq_ok.mp rest
    obtain ⟨t', picked, rest⟩ := bind_eq_ok.mp stores
    obtain rfl : t = t' := Option.some.inj (Field.expect_eq_ok.mp picked)
    obtain ⟨s', written, rest⟩ := bind_eq_ok.mp rest
    obtain rfl : s' = s := Value.text.inj (pure_eq_ok.mp rest)
    exact ⟨t, Field.parse_eq_ok.mp time, Field.timeText_eq_ok.mp written⟩
  · rintro ⟨t, read, written⟩
    refine ⟨.timestamp t, bind_eq_ok.mpr ⟨s, rfl, ?_⟩, bind_eq_ok.mpr ⟨t, rfl, ?_⟩⟩
    · exact bind_eq_ok.mpr ⟨t, Field.parse_eq_ok.mpr read, rfl⟩
    · exact bind_eq_ok.mpr ⟨s, Field.timeText_eq_ok.mpr written, rfl⟩

/-- A decimal kept as text comes back unless it is a negative zero. -/
theorem returns_bigDecimal_iff {x : Scaled} : Returns (.plain .bigDecimal) f (.text x.text) ↔
    (x.coefficient = 0 → x.negative = false) := by
  rw [← Scaled.unsignZero_eq_self_iff]
  constructor
  · rintro ⟨v, read, stores⟩
    obtain ⟨s, text, parsed⟩ := bind_eq_ok.mp read
    obtain rfl : x.text = s := Option.some.inj (Field.expect_eq_ok.mp text)
    obtain ⟨y, number, rest⟩ := bind_eq_ok.mp parsed
    obtain rfl := pure_eq_ok.mp rest
    have number := Field.parse_eq_ok.mp number
    rw [x.trim_text, x.read?_text_unsigned] at number
    obtain rfl := Option.some.inj number
    exact Scaled.text_unsignZero_iff.mp (Value.text.inj (Except.ok.inj stores))
  · intro signed
    exact (keeps_bigDecimal (Scaled.read?_text (Scaled.unsignZero_eq_self_iff.mp signed))).returns

end Codec

/-! ### Reading a default -/

theorem Field.parseConstant_eq_ok {f : Field} {s : String} {k : EnumConstant} :
    f.parseConstant s = .ok k ↔ ∃ e, f.enumeration = .ok e ∧ e.byName? s = some k := by
  rw [parseConstant, bind_eq_ok]
  refine exists_congr fun e => and_congr_right fun _ => ?_
  cases e.byName? s with
  | none => exact ⟨fun h => (nomatch h), fun h => (nomatch h)⟩
  | some k => exact pure_eq_ok.trans Option.some_inj.symm

theorem Field.parseOrdinal_eq_ok {f : Field} {s : String} {k : EnumConstant} :
    f.parseOrdinal s = .ok k ↔ ∃ n e, readWord? 32 (Text.trim s.toList) = some n ∧
      f.enumeration = .ok e ∧ e.byOrdinal? n = some k := by
  rw [parseOrdinal, bind_eq_ok]
  refine exists_congr fun n => ?_
  rw [parse_eq_ok, bind_eq_ok, ← exists_and_left]
  refine exists_congr fun e => and_congr_right fun _ => and_congr_right fun _ => ?_
  cases e.byOrdinal? n with
  | none => exact ⟨fun h => (nomatch h), fun h => (nomatch h)⟩
  | some k => exact pure_eq_ok.trans Option.some_inj.symm

namespace Codec

open Converter (Keeps Returns)

variable {d : FieldDecl} {dialect : Dialect} {c : Codec} {f : Field} {text : String} {w : Value}

/-- The default that is read while there is no default yet comes back, whatever it is, but for
counts of milliseconds, dates kept as text and decimals kept as text. -/
theorem returns_of_parseDefault (built : d.Built dialect c f)
    (free : c ≠ .dateLong ∧ c ≠ .dateString ∧ c ≠ .bigDecimal)
    (read : c.parseDefault { f with defaultValue := none } text = .ok w) :
    Returns (.plain c) f w := by
  cases c with
  | string | longString =>
    obtain rfl := Except.ok.inj read
    exact ⟨.text text, rfl, rfl⟩
  | byteArray =>
    obtain rfl := Except.ok.inj read
    exact ⟨.bytes _, rfl, rfl⟩
  | stringBytes | serializable => cases read
  | character _ =>
    rw [parseDefault] at read
    obtain ⟨c, -, rfl⟩ := map_eq_ok.mp read
    exact ⟨.char c, rfl, rfl⟩
  | boolean _ =>
    rw [parseDefault] at read
    obtain ⟨b, -, rfl⟩ := map_eq_ok.mp read
    exact ⟨.bool b, rfl, rfl⟩
  | booleanChar =>
    rw [parseDefault] at read
    obtain ⟨b, -, rfl⟩ := map_eq_ok.mp read
    exact ⟨.bool (decide (f.boolChar b = f.trueChar)), rfl, by
      rw [built.boolChar_eq_trueChar]
      rfl⟩
  | booleanInteger =>
    rw [parseDefault] at read
    obtain ⟨b, -, rfl⟩ := map_eq_ok.mp read
    exact returns_booleanInteger b
  | integral width primitive =>
    rw [parseDefault] at read
    obtain ⟨n, -, rfl⟩ := map_eq_ok.mp read
    exact (keeps_integral width primitive n).returns
  | single _ =>
    rw [parseDefault] at read
    obtain ⟨x, -, rfl⟩ := map_eq_ok.mp read
    exact ⟨.float x, rfl, rfl⟩
  | double _ =>
    rw [parseDefault] at read
    obtain ⟨x, -, rfl⟩ := map_eq_ok.mp read
    exact ⟨.double x, rfl, rfl⟩
  | date =>
    rw [parseDefault] at read
    obtain ⟨t, -, rfl⟩ := map_eq_ok.mp read
    exact ⟨.timestamp t, rfl, rfl⟩
  | dateInteger =>
    rw [parseDefault] at read
    obtain ⟨n, -, rfl⟩ := map_eq_ok.mp read
    exact returns_dateInteger n
  | enumString =>
    rw [parseDefault] at read
    obtain ⟨k, constant, rfl⟩ := map_eq_ok.mp read
    obtain ⟨e, enumeration, found⟩ := Field.parseConstant_eq_ok.mp constant
    obtain ⟨-, rfl⟩ := Enumeration.mem_of_byName? found
    refine ⟨.enum k, bind_eq_ok.mpr ⟨k.name, rfl, bind_eq_ok.mpr ⟨e, enumeration, ?_⟩⟩, rfl⟩
    rw [found, Field.resolve_some]
  | enumInteger =>
    rw [parseDefault] at read
    obtain ⟨k, constant, rfl⟩ := map_eq_ok.mp read
    obtain ⟨n, e, -, enumeration, found⟩ := Field.parseOrdinal_eq_ok.mp constant
    obtain ⟨-, rfl⟩ := Enumeration.mem_of_byOrdinal? found
    refine ⟨.enum k, bind_eq_ok.mpr ⟨k.ordinal, Field.expect_some (Number.toWord?_toInt k.ordinal),
      bind_eq_ok.mpr ⟨e, enumeration, ?_⟩⟩, rfl⟩
    rw [found, Field.resolve_some]
  | uuid =>
    rw [parseDefault] at read
    obtain ⟨u, -, rfl⟩ := map_eq_ok.mp read
    exact (keeps_uuid u).returns
  | uuidNative =>
    rw [parseDefault] at read
    obtain ⟨u, -, rfl⟩ := map_eq_ok.mp read
    exact ⟨.uuid u, rfl, rfl⟩
  | bigInteger =>
    rw [parseDefault] at read
    obtain ⟨n, -, rfl⟩ := map_eq_ok.mp read
    exact (keeps_bigInteger n).returns
  | bigDecimalNumeric =>
    rw [parseDefault] at read
    obtain ⟨x, -, rfl⟩ := map_eq_ok.mp read
    exact ⟨.decimal x, rfl, rfl⟩
  | dateLong => exact absurd rfl free.1
  | dateString => exact absurd rfl free.2.1
  | bigDecimal => exact absurd rfl free.2.2

end Codec

/-! ### Fields -/

namespace FieldDecl

variable {d : FieldDecl} {dialect : Dialect} {c : Codec} {f : Field} {text : String} {w : Value}

/-- A field that is built with a default has one, which its converter read. -/
theorem defaultValue_of_toField (h : d.toField dialect = .ok f)
    (default : d.defaultText = some text) :
    ∃ w, f.defaultValue = some w ∧
      f.converter.parseDefault { f with defaultValue := none } text = .ok w := by
  obtain ⟨w, value⟩ : ∃ w, f.defaultValue = some w := by
    unfold toField at h
    cases codec : d.type.codec? with
    | none =>
      rw [codec] at h
      cases h
    | some c =>
      rw [codec] at h
      obtain ⟨⟨⟩, -, h⟩ := bind_eq_ok.mp h
      obtain ⟨formatting, -, h⟩ := bind_eq_ok.mp h
      dsimp only at h
      rw [default] at h
      obtain ⟨w, -, h⟩ := bind_eq_ok.mp h
      cases h
      exact ⟨w, rfl⟩
  obtain ⟨text', default', read⟩ := parseDefault_of_toField h value
  obtain rfl := Option.some.inj (default.symm.trans default')
  exact ⟨w, value, read⟩

/-- What has to hold for the default of a declaration to come back from its native form. -/
structure DefaultReturns (d : FieldDecl) (dialect : Dialect) (text : String) : Prop where
  /-- A character is stored as a character. -/
  character : d.type = .char ∨ d.type = .charObj → dialect.lacksCharacter = false
  /-- A count of milliseconds lies in the calendar. -/
  millis : d.type = .dateLong → ∀ n, readWord? 64 (Text.trim text.toList) = some n →
    Timestamp.firstMilli ≤ n.toInt ∧ n.toInt < Timestamp.endMilli
  /-- What a format of its own writes for a date, it reads as a date that it writes the same. -/
  date : d.type = .dateString → ∀ format p t s, d.format = some format →
    Calendar.Pattern.ofText? format = some p →
    Field.readTime? p.items (Text.trim text.toList) = some t → p.write? t = some s →
    ∃ t', Field.readTime? p.items (Text.trim s.toList) = some t' ∧ p.write? t' = some s
  /-- A decimal is no negative zero. -/
  decimal : d.type = .bigDecimal → ∀ x, Scaled.read? (Text.trim text.toList) = some x →
    x.coefficient = 0 → x.negative = false

/-- Nothing has to hold for types other than these. -/
theorem defaultReturns_of_type (h : d.type ≠ .char ∧ d.type ≠ .charObj ∧ d.type ≠ .dateLong ∧
    d.type ≠ .dateString ∧ d.type ≠ .bigDecimal) : d.DefaultReturns dialect text :=
  ⟨fun type => (type.elim h.1 h.2.1).elim, fun type => (h.2.2.1 type).elim,
    fun type => (h.2.2.2.1 type).elim, fun type => (h.2.2.2.2 type).elim⟩

theorem defaultReturns_dateLong_iff (type : d.type = .dateLong) {n : Word 64}
    (read : readWord? 64 (Text.trim text.toList) = some n) : d.DefaultReturns dialect text ↔
      Timestamp.firstMilli ≤ n.toInt ∧ n.toInt < Timestamp.endMilli := by
  refine ⟨fun h => h.millis type n read, fun bounds => ⟨?_, ?_, ?_, ?_⟩⟩ <;> rw [type]
  · simp
  · intro _ m read'
    obtain rfl := Option.some.inj (read.symm.trans read')
    exact bounds
  · simp
  · simp

theorem defaultReturns_bigDecimal_iff (type : d.type = .bigDecimal) {x : Scaled}
    (read : Scaled.read? (Text.trim text.toList) = some x) : d.DefaultReturns dialect text ↔
      (x.coefficient = 0 → x.negative = false) := by
  refine ⟨fun h => h.decimal type x read, fun signed => ⟨?_, ?_, ?_, ?_⟩⟩ <;> rw [type]
  · simp
  · simp
  · simp
  · intro _ y read'
    obtain rfl := Option.some.inj (read.symm.trans read')
    exact signed

/-- A date without a format of its own always comes back. -/
theorem defaultReturns_dateString_iff (built : d.Built dialect .dateString f)
    (type : d.type = .dateString) {t : Timestamp} {s : String}
    (read : Field.readTime? f.datePattern.items (Text.trim text.toList) = some t)
    (written : f.datePattern.write? t = some s) : d.DefaultReturns dialect text ↔
      ∃ t', Field.readTime? f.datePattern.items (Text.trim s.toList) = some t' ∧
        f.datePattern.write? t' = some s := by
  rcases built.datePattern (.inr rfl) with ⟨none, standard⟩ | ⟨format, some, parsed⟩
  · rw [standard] at written ⊢
    have text : t.text = s := Option.some.inj ((Calendar.Pattern.write?_standard t).symm.trans written)
    subst text
    refine iff_of_true ⟨?_, ?_, ?_, ?_⟩ ⟨t, Calendar.readTime?_text t, written⟩
    · simp [type]
    · simp [type]
    · simp [none]
    · simp [type]
  · constructor
    · intro h
      exact h.date type format f.datePattern t s some parsed read written
    · intro again
      refine ⟨by simp [type], by simp [type], ?_, by simp [type]⟩
      intro _ format' p t' s' some' parsed' read' written'
      obtain rfl := Option.some.inj (some.symm.trans some')
      obtain rfl := Option.some.inj (parsed.symm.trans parsed')
      obtain rfl := Option.some.inj (read.symm.trans read')
      obtain rfl := Option.some.inj (written.symm.trans written')
      exact again

/-- The default that a codec without layers reads comes back under the conditions of its type. -/
theorem returns_plain_iff (built : d.Built dialect c f) (plain : dialect.converter c = .plain c)
    (read : c.parseDefault { f with defaultValue := none } text = .ok w) :
    (Converter.plain c).Returns f w ↔ d.DefaultReturns dialect text := by
  have type : c.type = d.type := Codec.codec?_eq_some_iff.mp built.codec
  by_cases long : c = .dateLong
  · subst long
    rw [Codec.parseDefault] at read
    obtain ⟨n, number, rfl⟩ := map_eq_ok.mp read
    rw [defaultReturns_dateLong_iff type.symm (Field.parse_eq_ok.mp number)]
    exact Codec.returns_dateLong_iff
  by_cases date : c = .dateString
  · subst date
    rw [Codec.parseDefault] at read
    obtain ⟨t, time, read⟩ := bind_eq_ok.mp read
    obtain ⟨s, written, rest⟩ := bind_eq_ok.mp read
    obtain rfl := pure_eq_ok.mp rest
    rw [defaultReturns_dateString_iff built type.symm (Field.parse_eq_ok.mp time)
      (Field.timeText_eq_ok.mp written)]
    exact Codec.returns_dateString_iff
  by_cases decimal : c = .bigDecimal
  · subst decimal
    rw [Codec.parseDefault] at read
    obtain ⟨x, number, rfl⟩ := map_eq_ok.mp read
    rw [defaultReturns_bigDecimal_iff type.symm (Field.parse_eq_ok.mp number)]
    exact Codec.returns_bigDecimal_iff
  -- Every other type keeps its defaults; characters do where they have no layer.
  refine iff_of_true (Codec.returns_of_parseDefault built ⟨long, date, decimal⟩ read) ?_
  have lacks (p : Bool) (character : c = .character p) : dialect.lacksCharacter = false := by
    subst character
    by_contra lacks
    simp [Dialect.converter, Converter.plain, lacks] at plain
  have character : d.type = .char ∨ d.type = .charObj → dialect.lacksCharacter = false := by
    rintro (char | charObj)
    · exact lacks true ((Codec.eq_iff_of_codec? built.codec).mpr char)
    · exact lacks false ((Codec.eq_iff_of_codec? built.codec).mpr charObj)
  exact ⟨character, fun h => (long ((Codec.eq_iff_of_codec? built.codec).mpr h)).elim,
    fun h => (date ((Codec.eq_iff_of_codec? built.codec).mpr h)).elim,
    fun h => (decimal ((Codec.eq_iff_of_codec? built.codec).mpr h)).elim⟩

/-- The default that a converter reads comes back under the conditions of its type. -/
theorem returns_iff (built : d.Built dialect c f)
    (read : (dialect.converter c).parseDefault { f with defaultValue := none } text = .ok w) :
    (dialect.converter c).Returns f w ↔ d.DefaultReturns dialect text := by
  have type : c.type = d.type := Codec.codec?_eq_some_iff.mp built.codec
  obtain plain | ⟨p, rfl, layered⟩ | ⟨p, rfl, layered⟩ := dialect.converter_cases c
  · rw [plain] at read ⊢
    exact returns_plain_iff built plain read
  · rw [layered] at read ⊢
    obtain ⟨u, -, read⟩ := bind_eq_ok.mp read
    obtain ⟨b, -, rest⟩ := bind_eq_ok.mp read
    obtain rfl := pure_eq_ok.mp rest
    refine iff_of_true ?_ (defaultReturns_of_type ?_)
    · cases b with
      | false => exact ⟨.bool false, rfl, rfl⟩
      | true => exact ⟨.bool true, rfl, rfl⟩
    · rw [← type]
      cases p <;> simp [Codec.type]
  · -- The layer stores characters as text and passes the default on as a character.
    rw [layered] at read ⊢
    obtain ⟨a, -, rfl⟩ := map_eq_ok.mp read
    refine iff_of_false ?_ ?_
    · rintro ⟨v, given, stored⟩
      obtain rfl := Except.ok.inj given
      cases stored
    · intro h
      have lacks : dialect.lacksCharacter = true := by
        by_contra lacks
        simp [Dialect.converter, Converter.plain, lacks] at layered
      have character : d.type = .char ∨ d.type = .charObj := by
        rw [← type]
        cases p <;> simp [Codec.type]
      rw [h.character character] at lacks
      cases lacks

/-- The stored default of a field that is built comes back from the native default exactly under
the conditions of its type. -/
theorem default_returns_iff (built : d.toField dialect = .ok f)
    (default : d.defaultText = some text) :
    ∃ w, f.defaultValue = some w ∧
      ((∃ v, f.nativeDefault = .ok (some v) ∧ f.toStored v = .ok w) ↔
        d.DefaultReturns dialect text) := by
  obtain ⟨w, value, read⟩ := defaultValue_of_toField built default
  obtain ⟨c, made⟩ := built_of_toField built
  refine ⟨w, value, ?_⟩
  have nonnull : w ≠ .null := by
    rintro rfl
    cases (Converter.parseDefault_carries read).nonnull
  have native (v : Value) :
      f.nativeDefault = .ok (some v) ↔ f.converter.ofStored f w 0 = .ok v := by
    have given : f.nativeDefault = some <$> f.converter.ofStored f w 0 := by
      rw [Field.nativeDefault, value]
      rfl
    rw [given]
    refine map_eq_ok.trans ⟨?_, fun h => ⟨v, h, rfl⟩⟩
    rintro ⟨u, h, same⟩
    rw [h, Option.some.inj same]
  have stored (v : Value) : f.toStored v = .ok w ↔ f.converter.toStored f v = .ok w := by
    constructor
    · intro h
      rcases Field.toStored_cases h with ⟨-, null⟩ | ⟨-, stored⟩
      · exact absurd null nonnull
      · exact stored
    · intro h
      have value : v ≠ .null := by
        rintro rfl
        obtain ⟨e, failed⟩ := f.converter.exists_toStored_null f
        rw [failed] at h
        cases h
      rw [Field.toStored_of_nonnull (Bool.eq_false_iff.mpr (mt Value.isNull_iff.mp value)), h]
  have returned : f.converter.Returns f w ↔ d.DefaultReturns dialect text := by
    rw [made.converter]
    refine returns_iff made ?_
    rw [← made.converter]
    exact read
  rw [← returned]
  exact exists_congr fun v => and_congr (native v) (stored v)

/-- The last millisecond of the calendar comes back as a default, and so does a text. -/
theorem last_millisecond_returns :
    (∃ f w v, FieldDecl.toField
          { name := "at", type := .dateLong, defaultText := some "8210266876799999" } .sqlite =
            .ok f ∧
        f.defaultValue = some w ∧ f.nativeDefault = .ok (some v) ∧ f.toStored v = .ok w) ∧
      ∃ f w v, FieldDecl.toField
          { name := "name", type := .string, defaultText := some "none" } .derby = .ok f ∧
        f.defaultValue = some w ∧ f.nativeDefault = .ok (some v) ∧ f.toStored v = .ok w := by
  constructor
  · obtain ⟨f, built⟩ : ∃ f, FieldDecl.toField
        { name := "at", type := .dateLong, defaultText := some "8210266876799999" } .sqlite =
          .ok f := ⟨_, rfl⟩
    obtain ⟨w, value, returns⟩ := default_returns_iff built rfl
    have number : readWord? 64 (Text.trim "8210266876799999".toList) = some 8210266876799999 := by
      decide
    obtain ⟨v, native, stored⟩ := returns.mpr <|
      (defaultReturns_dateLong_iff rfl number).mpr (by decide)
    exact ⟨f, w, v, built, value, native, stored⟩
  · obtain ⟨f, built⟩ : ∃ f, FieldDecl.toField
        { name := "name", type := .string, defaultText := some "none" } .derby = .ok f := ⟨_, rfl⟩
    obtain ⟨w, value, returns⟩ := default_returns_iff built rfl
    obtain ⟨v, native, stored⟩ := returns.mpr (defaultReturns_of_type (by decide))
    exact ⟨f, w, v, built, value, native, stored⟩

/-- A default of milliseconds is accepted although no date of the calendar has so many. -/
theorem default_after_last_date :
    ∃ f, FieldDecl.toField
          { name := "at", type := .dateLong, defaultText := some "9223372036854775807" } .sqlite =
            .ok f ∧
      f.defaultValue = some (.long 9223372036854775807) ∧
      f.nativeDefault = .error (.conversion (.millisOutOfRange "at" 9223372036854775807)) :=
  ⟨_, rfl, rfl, rfl⟩

end FieldDecl

end Relmap
