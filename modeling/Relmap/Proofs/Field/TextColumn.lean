import Relmap.Proofs.Calendar.Standard
import Relmap.Proofs.Field.RoundTrip

/-!
# A column read as text

Every column can be read as text, and a type has a reader of its own for such a text, which is not
the reader of its defaults: a boolean is one of two words, a one or a zero, or one of the two
characters of its field, a date may be a number, and a character keeps its blanks. What was stored
for a value is read from its text as that value again (`Field.ofText_getString`).

Whether a text says all of a value is a matter of the value (`FieldDecl.Spelled`). Octets that are no
text are shown with U+FFFD, a pattern of dates may leave out the year, and binary numbers are left
out. One lemma for the codecs goes by the shapes of values; the layers of a dialect change the
text of booleans only.
-/

namespace Relmap

open Number (Scaled readWord? intText)
open Outcome (bind_eq_ok map_eq_ok)

/-- The text of what is stored for a value says all of it: the value is no binary number, no octets
but those of a text, no date by a pattern of the field, and no decimal that is read as another one. -/
structure FieldDecl.Spelled (d : FieldDecl) (v : Value) : Prop where
  exact : d.type ∉ [.float, .floatObj, .double, .doubleObj]
  standard : d.type = .date → d.format = none
  octets : ∀ b, v = .bytes b → ∃ s, Text.Utf8.decode b = .ok s
  legible : v.DecimalLegible

/-! ### Texts of stored values -/

theorem Width.display_value (w : Width) (n : Number.Word w.bits) :
    (w.value n).display = intText n.toInt := by
  cases w <;> rfl

theorem Field.parseBool_display (f : Field) (b : Bool) :
    f.parseBool (Value.bool b).display = .ok b := by
  cases b with
  | false => exact parse_some (by decide) (by decide)
  | true => exact parse_some (by decide) (by decide)

/-! ### Codecs -/

namespace Codec

variable {d : FieldDecl} {dialect : Dialect} {c : Codec} {f : Field} {v w : Value}

theorem ofText_stringBytes (s : String) :
    Codec.stringBytes.ofText f (Value.bytes (Text.Utf8.encode s.toList)).display =
      .ok (.text s) := by
  rw [Value.display, Text.Utf8.decodeLossy_encode, String.ofList_toList]
  rfl

theorem ofText_byteArray {b : List UInt8} (octets : ∃ s, Text.Utf8.decode b = .ok s) :
    Codec.byteArray.ofText f (Value.bytes b).display = .ok (.bytes b) := by
  obtain ⟨s, text⟩ := octets
  obtain rfl := Text.Utf8.decode_eq_ok_iff.mp text
  rw [ofText, Value.display, Text.Utf8.decodeLossy_encode, String.toList_ofList]

theorem ofText_date (built : d.Built dialect .date f) (standard : d.format = none)
    (t : Calendar.Timestamp) :
    Codec.date.ofText f (Value.timestamp t).display = .ok (.timestamp t) := by
  have pattern : f.datePattern = .standard := by
    rcases built.datePattern (.inl rfl) with ⟨-, pattern⟩ | ⟨format, given, -⟩
    · exact pattern
    · rw [standard] at given
      cases given
  have read : Field.readTime? Calendar.Pattern.standard.items (Text.trim t.text.toList) = some t :=
    Calendar.readTime?_text t
  have parsed : f.parseTime t.text = .ok t := by
    rw [Field.parseTime, pattern, Field.parse, read]
  exact map_eq_ok.mpr ⟨t, parsed, rfl⟩

theorem ofText_enumInteger (built : d.Built dialect .enumInteger f) {k : EnumConstant}
    (declared : k ∈ (Enumeration.mk d.enumConstants).constants) :
    Codec.enumInteger.ofText f (Value.int k.ordinal).display = .ok (.enum k) := by
  have sizes := (built.enumeration (.inr rfl)).2
  refine bind_eq_ok.mpr ⟨k.ordinal, f.parse_intText _ _, ?_⟩
  rw [built.ofOrdinal, Enumeration.byOrdinal?_self sizes declared, Field.resolve_some]

/-- What a codec stores for a value in its own shape is read from its text as the value. -/
theorem ofText_display (built : d.Built dialect c f)
    (distinct : c = .enumString → d.enumConstants.Nodup) (spelled : d.Spelled v)
    (h : c.Holds d.enumConstants v) (stored : (Converter.plain c).toStored f v = .ok w) :
    c.ofText f w.display = .ok v := by
  have exact : c.type ∉ [.float, .floatObj, .double, .doubleObj] :=
    codec?_eq_some_iff.mp built.codec ▸ spelled.exact
  have of_keeps {u : Value} (kept : (Converter.plain c).Keeps f v u)
      (read : c.ofText f u.display = .ok v) : c.ofText f w.display = .ok v := by
    rwa [Except.ok.inj (stored.symm.trans kept.stores)]
  cases h with
  | string s | longString s =>
    obtain rfl := Except.ok.inj stored
    rfl
  | stringBytes s => exact of_keeps (keeps_stringBytes s) (ofText_stringBytes s)
  | byteArray b =>
    obtain rfl := Except.ok.inj stored
    exact ofText_byteArray (spelled.octets b rfl)
  | character _ x =>
    obtain rfl := Except.ok.inj stored
    exact map_eq_ok.mpr ⟨x, f.parseChar_ofList x, rfl⟩
  | boolean _ b =>
    obtain rfl := Except.ok.inj stored
    rw [ofText, f.parseBool_display]
    rfl
  | booleanChar b =>
    obtain rfl := Except.ok.inj stored
    exact map_eq_ok.mpr ⟨f.boolChar b, f.parseChar_ofList _,
      congrArg Value.bool (built.boolChar_eq_trueChar b)⟩
  | booleanInteger b =>
    obtain rfl := Except.ok.inj stored
    exact map_eq_ok.mpr ⟨_, f.parse_intText _ _, by cases b <;> rfl⟩
  | integral width primitive n =>
    refine of_keeps (keeps_integral width primitive n) (map_eq_ok.mpr ⟨n, ?_, rfl⟩)
    rw [width.display_value]
    exact f.parse_intText _ n
  | single p x => cases p <;> simp [type] at exact
  | double p x => cases p <;> simp [type] at exact
  | date t =>
    obtain rfl := Except.ok.inj stored
    exact ofText_date built (spelled.standard (codec?_eq_some_iff.mp built.codec).symm) t
  | dateLong t whole =>
    have kept := keeps_dateLong (f := f) whole
    exact of_keeps kept (bind_eq_ok.mpr ⟨_, f.parse_intText _ _, kept.gives 0⟩)
  | dateInteger t whole fits =>
    have kept := keeps_dateInteger (f := f) whole fits
    exact of_keeps kept (bind_eq_ok.mpr ⟨_, f.parse_intText _ _, kept.gives 0⟩)
  | enumString k declared =>
    have kept := keeps_enumString built (distinct rfl) declared
    exact of_keeps kept (kept.gives 0)
  | enumInteger k declared =>
    exact of_keeps (keeps_enumInteger built declared) (ofText_enumInteger built declared)
  | uuid u =>
    refine of_keeps (keeps_uuid u) ?_
    rw [ofText, Value.display, f.parse_uuid]
    rfl
  | uuidNative u =>
    obtain rfl : Value.uuid u = w := Except.ok.inj stored
    rw [ofText, Value.display, f.parse_uuid]
    rfl
  | bigInteger n =>
    refine of_keeps (keeps_bigInteger n) ?_
    rw [ofText, Value.display, f.parse_intText]
    rfl
  | bigDecimal x =>
    have legible := spelled.legible x rfl
    refine of_keeps (keeps_bigDecimal legible) ?_
    rw [ofText, Value.display, f.parse_decimal legible]
    rfl
  | bigDecimalNumeric x =>
    obtain rfl : Value.decimal x = w := Except.ok.inj stored
    rw [ofText, Value.display, f.parse_decimal (spelled.legible x rfl)]
    rfl

end Codec

/-! ### Layers -/

namespace Converter

variable {d : FieldDecl} {dialect : Dialect} {c : Codec} {f : Field} {v w : Value}

/-- Behind the layers of any dialect a value is read from its text too. -/
theorem ofText_display (built : d.Built dialect c f)
    (distinct : c = .enumString → d.enumConstants.Nodup) (spelled : d.Spelled v)
    (h : c.Holds d.enumConstants v) (stored : (dialect.converter c).toStored f v = .ok w) :
    (dialect.converter c).ofText f w.display = .ok v := by
  obtain plain | ⟨p, rfl, layered⟩ | ⟨p, rfl, layered⟩ := dialect.converter_cases c
  · rw [plain] at stored ⊢
    exact Codec.ofText_display built distinct spelled h stored
  · obtain ⟨b, rfl⟩ : ∃ b, v = .bool b := by cases h; exact ⟨_, rfl⟩
    rw [layered] at stored ⊢
    obtain rfl : boolByte b = w := Except.ok.inj stored
    refine bind_eq_ok.mpr ⟨_, f.parse_intText "byte" _, ?_⟩
    cases b <;> rfl
  · obtain ⟨x, rfl⟩ : ∃ x, v = .char x := by cases h; exact ⟨_, rfl⟩
    rw [layered] at stored ⊢
    obtain rfl : Value.text (String.ofList [x]) = w := Except.ok.inj stored
    exact map_eq_ok.mpr ⟨x, f.parseChar_ofList x, rfl⟩

end Converter

/-! ### Fields -/

/-- **A column read as text converts to the value that was stored.** A value in the own shape of the
type of a field is stored; the column that holds it is read as text, whatever its type, and the field
makes the same value of the text. -/
theorem Field.ofText_getString {d : FieldDecl} {dialect : Dialect} {f : Field} {v : Value}
    (built : d.toField dialect = .ok f) (distinct : d.type.isEnum = true → d.enumConstants.Nodup)
    (shape : d.Holds v) (spelled : d.Spelled v) :
    ∃ w, f.toStored v = .ok w ∧ ∀ (r : Results) (position : Nat), r.get position = .ok w →
      ∃ s, r.getString position = .ok s ∧ f.ofText s = .ok v := by
  obtain ⟨c, made⟩ := FieldDecl.built_of_toField built
  obtain ⟨nonnull, w, kept⟩ := FieldDecl.exists_keeps built distinct shape spelled.legible
  have stored := kept.stores
  rw [made.converter] at stored
  refine ⟨w, (toStored_of_nonnull nonnull).trans kept.stores, fun r position hget =>
    ⟨w.display, (Results.getString_eq_ok hget).mpr rfl, ?_⟩⟩
  rw [ofText, made.converter]
  exact Converter.ofText_display made (made.nodup_of_enumString distinct) spelled
    (shape.of_codec made.codec) stored

/-- A blank stays a character where characters travel as text, and two octets that are one character
come back from its text. -/
theorem Field.blank_and_octets_read_as_text :
    (∃ f w s, FieldDecl.toField { name := "mark", type := .char } .derby = .ok f ∧
        f.toStored (.char ' ') = .ok w ∧ (Results.ofRow [("mark", w)]).getString 0 = .ok s ∧
        f.ofText s = .ok (.char ' ')) ∧
      ∃ f w s, FieldDecl.toField { name := "data", type := .byteArray } .sqlite = .ok f ∧
        f.toStored (.bytes [0xC3, 0xA9]) = .ok w ∧
        (Results.ofRow [("data", w)]).getString 0 = .ok s ∧
        f.ofText s = .ok (.bytes [0xC3, 0xA9]) := by
  constructor
  · obtain ⟨f, built⟩ : ∃ f, FieldDecl.toField { name := "mark", type := .char } .derby = .ok f :=
      ⟨_, rfl⟩
    obtain ⟨w, stored, given⟩ := Field.ofText_getString built (fun h => nomatch h)
      ⟨_, rfl, .character true ' '⟩
      ⟨by decide, fun h => (nomatch h), fun _ h => (nomatch h), fun _ h => (nomatch h)⟩
    obtain ⟨s, text, read⟩ := given (Results.ofRow [("mark", w)]) 0 rfl
    exact ⟨f, w, s, built, stored, text, read⟩
  · obtain ⟨f, built⟩ : ∃ f, FieldDecl.toField { name := "data", type := .byteArray } .sqlite =
        .ok f := ⟨_, rfl⟩
    have octets : Text.Utf8.decode [0xC3, 0xA9] = .ok ['é'] :=
      Text.Utf8.decode_eq_ok_iff.mpr (by decide)
    obtain ⟨w, stored, given⟩ := Field.ofText_getString built (fun h => nomatch h)
      ⟨_, rfl, .byteArray [0xC3, 0xA9]⟩
      ⟨by decide, fun h => (nomatch h), fun b h => ⟨_, by cases h; exact octets⟩,
        fun _ h => (nomatch h)⟩
    obtain ⟨s, text, read⟩ := given (Results.ofRow [("data", w)]) 0 rfl
    exact ⟨f, w, s, built, stored, text, read⟩

end Relmap
