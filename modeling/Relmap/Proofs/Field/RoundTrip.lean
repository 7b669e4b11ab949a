import Relmap.Proofs.Calendar.Timestamp
import Relmap.Proofs.Field.Declare
import Relmap.Proofs.Field.Enumeration
import Relmap.Proofs.Field.Wire
import Relmap.Proofs.Number.Scaled
import Relmap.Proofs.Text.Utf8
import Relmap.Proofs.Uuid

/-!
# A stored value comes back

A value in the own shape of a field's type (`FieldDecl.Holds`) is stored, and what is stored gives
exactly that value again (`Field.ofStored_toStored`). Left out are the types whose stored form says
less than the value: data trees, dates by a pattern of the field, and the unknown type, which has no
codec. What is known of a field is that it was built; the law is proved for codecs, then carried
through the layers a dialect puts around them.
-/

namespace Relmap

open Number (Double Fits Scaled Single Word readWord? toWord?)
open Calendar (Timestamp)
open Outcome (bind_eq_ok map_eq_ok)

/-- The values in the own shape of a codec, where an enumeration declares the given names. -/
inductive Codec.Holds (names : List String) : Codec → Value → Prop
  | string (s : String) : Holds names .string (.text s)
  | longString (s : String) : Holds names .longString (.text s)
  | stringBytes (s : String) : Holds names .stringBytes (.text s)
  | byteArray (b : List UInt8) : Holds names .byteArray (.bytes b)
  | character (primitive : Bool) (c : Char) : Holds names (.character primitive) (.char c)
  | boolean (primitive : Bool) (b : Bool) : Holds names (.boolean primitive) (.bool b)
  | booleanChar (b : Bool) : Holds names .booleanChar (.bool b)
  | booleanInteger (b : Bool) : Holds names .booleanInteger (.bool b)
  | integral (w : Width) (primitive : Bool) (n : Word w.bits) :
    Holds names (.integral w primitive) (w.value n)
  | single (primitive : Bool) (x : Single) : Holds names (.single primitive) (.float x)
  | double (primitive : Bool) (x : Double) : Holds names (.double primitive) (.double x)
  | date (t : Timestamp) : Holds names .date (.timestamp t)
  | dateLong (t : Timestamp) (whole : t.OnMillisecond) : Holds names .dateLong (.timestamp t)
  | dateInteger (t : Timestamp) (whole : t.OnSecond) (fits : Fits 32 t.seconds) :
    Holds names .dateInteger (.timestamp t)
  | enumString (k : EnumConstant) (declared : k ∈ (Enumeration.mk names).constants) :
    Holds names .enumString (.enum k)
  | enumInteger (k : EnumConstant) (declared : k ∈ (Enumeration.mk names).constants) :
    Holds names .enumInteger (.enum k)
  | uuid (u : Uuid) : Holds names .uuid (.uuid u)
  | uuidNative (u : Uuid) : Holds names .uuidNative (.uuid u)
  | bigInteger (n : Word 128) : Holds names .bigInteger (.bigInteger n)
  | bigDecimal (d : Scaled) : Holds names .bigDecimal (.decimal d)
  | bigDecimalNumeric (d : Scaled) : Holds names .bigDecimalNumeric (.decimal d)

/-- The values in the own shape of a field's type. -/
def FieldDecl.Holds (d : FieldDecl) (v : Value) : Prop :=
  ∃ c, d.type.codec? = some c ∧ c.Holds d.enumConstants v

/-- The decimal in a value, if there is one, is read from its text again. -/
def Value.DecimalLegible (v : Value) : Prop :=
  ∀ d, v = .decimal d → Scaled.read? d.text.toList = some d

/-! ### Words and texts -/

namespace Field

variable {α : Type} {f : Field}

theorem expect_some {expected : String} {pick? : Value → Option α} {v : Value} {a : α}
    (h : pick? v = some a) : f.expect expected pick? v = .ok a := by
  rw [expect, h]

theorem parse_some {expected : String} {read? : List Char → Option α} {s : String} {a : α}
    (trimmed : Text.trim s.toList = s.toList) (h : read? s.toList = some a) :
    f.parse expected read? s = .ok a := by
  rw [parse, trimmed, h]

theorem resolve_some {e : Enumeration} {k : EnumConstant} {stored : String} :
    f.resolve e (some k) stored = .ok (.enum k) := rfl

theorem parse_intText (f : Field) (expected : String) {bits : Nat} (n : Word bits) :
    f.parse expected (readWord? bits) (Number.intText n.toInt) = .ok n :=
  parse_some (Number.trim_intText _) (Number.readWord?_intText n)

theorem parse_uuid (f : Field) (u : Uuid) : f.parse "uuid" Uuid.read? u.text = .ok u :=
  parse_some u.trim_text u.read?_text

theorem parse_decimal (f : Field) {x : Scaled} (legible : Scaled.read? x.text.toList = some x) :
    f.parse "decimal" Scaled.read? x.text = .ok x :=
  parse_some x.trim_text legible

theorem parseChar_ofList (f : Field) (c : Char) : f.parseChar (String.ofList [c]) = .ok c := by
  rw [parseChar, String.toList_ofList]

end Field

theorem Field.expectWord_value (f : Field) (w : Width) (n : Word w.bits) :
    f.expectWord w (w.value n) = .ok n := by
  rw [expectWord, w.integer?_value]
  simp only [Number.toWord?_toInt]

theorem Number.toInt_ofInt_of_fits {bits : Nat} {n : Int} (hb : 0 < bits) (h : Fits bits n) :
    (BitVec.ofInt bits n).toInt = n :=
  BitVec.toInt_ofInt_eq_self hb h.1 h.2

/-! ### Constants -/

namespace FieldDecl.Built

variable {d : FieldDecl} {dialect : Dialect} {f : Field}

/-- A name is looked up in the enumeration that is declared. -/
theorem ofConstantName (built : d.Built dialect .enumString f) (s : String) :
    f.ofConstantName s =
      f.resolve ⟨d.enumConstants⟩ ((Enumeration.mk d.enumConstants).byName? s) s := by
  rw [Field.ofConstantName, (built.enumeration (.inl rfl)).1]
  rfl

/-- So is an ordinal. -/
theorem ofOrdinal (built : d.Built dialect .enumInteger f) (n : Word 32) :
    f.ofOrdinal n = f.resolve ⟨d.enumConstants⟩
      ((Enumeration.mk d.enumConstants).byOrdinal? n) (Number.intText n.toInt) := by
  rw [Field.ofOrdinal, (built.enumeration (.inr rfl)).1]
  rfl

end FieldDecl.Built

/-- A number of thirty-two bits is taken for an ordinal, whatever its width. -/
theorem Codec.ofStored_ordinal {f : Field} {u : Value} {n : Word 32} (position : Nat)
    (h : u.integer? = some n.toInt) :
    Codec.enumInteger.ofStored f u position = f.ofOrdinal n := by
  have word : u.integer?.bind (toWord? 32) = some n := by
    rw [h, Option.bind_some, Number.toWord?_toInt]
  rw [Codec.ofStored, Field.expect_some word]
  rfl

/-! ### Codecs -/

/-- A converter stores `v` as `w`, which is not null, and `w` gives `v` again. -/
structure Converter.Keeps (c : Converter) (f : Field) (v w : Value) : Prop where
  stores : c.toStored f v = .ok w
  nonnull : w.isNull = false
  gives (position : Nat) : c.ofStored f w position = .ok v

namespace Codec

open Converter (Keeps)

variable {d : FieldDecl} {dialect : Dialect} {c : Codec} {f : Field} {v w : Value}

theorem keeps_stringBytes (s : String) :
    Keeps (.plain .stringBytes) f (.text s) (.bytes (Text.Utf8.encode s.toList)) where
  stores := rfl
  nonnull := rfl
  gives _ := bind_eq_ok.mpr ⟨Text.Utf8.encode s.toList, rfl, by
    rw [Field.ofOctets, Text.Utf8.decode_encode]
    simp only [String.ofList_toList]⟩

theorem keeps_integral (w : Width) (primitive : Bool) (n : Word w.bits) :
    Keeps (.plain (.integral w primitive)) f (w.value n) (w.value n) where
  stores := map_eq_ok.mpr ⟨n, f.expectWord_value w n, rfl⟩
  nonnull := by cases w <;> rfl
  gives _ := map_eq_ok.mpr ⟨n, f.expectWord_value w n, rfl⟩

theorem keeps_dateLong {t : Timestamp} (whole : t.OnMillisecond) :
    Keeps (.plain .dateLong) f (.timestamp t) (.long (BitVec.ofInt 64 t.millis)) where
  stores := rfl
  nonnull := rfl
  gives _ := bind_eq_ok.mpr ⟨(BitVec.ofInt 64 t.millis).toInt, rfl, by
    rw [t.toInt_millis, Field.ofMillis, Timestamp.ofMillis?_millis whole]⟩

theorem keeps_dateInteger {t : Timestamp} (whole : t.OnSecond) (fits : Fits 32 t.seconds) :
    Keeps (.plain .dateInteger) f (.timestamp t) (.int (BitVec.ofInt 32 t.seconds)) where
  stores := bind_eq_ok.mpr ⟨t, rfl, bind_eq_ok.mpr ⟨BitVec.ofInt 32 t.seconds, by
    rw [Field.secondsWord, toWord?, if_pos fits], rfl⟩⟩
  nonnull := rfl
  gives _ := bind_eq_ok.mpr ⟨(BitVec.ofInt 32 t.seconds).toInt, rfl, by
    rw [Number.toInt_ofInt_of_fits (by decide) fits, Field.ofSeconds,
      Timestamp.ofSeconds?_seconds whole]⟩

theorem keeps_enumString (built : d.Built dialect .enumString f) (distinct : d.enumConstants.Nodup)
    {k : EnumConstant} (declared : k ∈ (Enumeration.mk d.enumConstants).constants) :
    Keeps (.plain .enumString) f (.enum k) (.text k.name) where
  stores := rfl
  nonnull := rfl
  gives _ := by
    show f.ofConstantName k.name = _
    rw [built.ofConstantName, Enumeration.byName?_self distinct declared, Field.resolve_some]

theorem keeps_enumInteger (built : d.Built dialect .enumInteger f) {k : EnumConstant}
    (declared : k ∈ (Enumeration.mk d.enumConstants).constants) :
    Keeps (.plain .enumInteger) f (.enum k) (.int k.ordinal) where
  stores := rfl
  nonnull := rfl
  gives position := by
    have sizes := (built.enumeration (.inr rfl)).2
    show Codec.enumInteger.ofStored f (.int k.ordinal) position = _
    rw [Codec.ofStored_ordinal position rfl, built.ofOrdinal,
      Enumeration.byOrdinal?_self sizes declared, Field.resolve_some]

theorem keeps_uuid (u : Uuid) : Keeps (.plain .uuid) f (.uuid u) (.text u.text) where
  stores := rfl
  nonnull := rfl
  gives _ := bind_eq_ok.mpr ⟨u.text, rfl,
    bind_eq_ok.mpr ⟨u, f.parse_uuid u, rfl⟩⟩

theorem keeps_bigInteger (n : Word 128) :
    Keeps (.plain .bigInteger) f (.bigInteger n) (.text (Number.intText n.toInt)) where
  stores := rfl
  nonnull := rfl
  gives _ := bind_eq_ok.mpr ⟨Number.intText n.toInt, rfl,
    bind_eq_ok.mpr ⟨n, f.parse_intText _ n, rfl⟩⟩

theorem keeps_bigDecimal {x : Scaled} (legible : Scaled.read? x.text.toList = some x) :
    Keeps (.plain .bigDecimal) f (.decimal x) (.text x.text) where
  stores := rfl
  nonnull := rfl
  gives _ := bind_eq_ok.mpr ⟨x.text, rfl,
    bind_eq_ok.mpr ⟨x, f.parse_decimal legible, rfl⟩⟩

/-- A value in its own shape is kept by the codec. -/
theorem exists_keeps (built : d.Built dialect c f) (distinct : c = .enumString → d.enumConstants.Nodup)
    (legible : v.DecimalLegible) (h : c.Holds d.enumConstants v) : ∃ w, Keeps (.plain c) f v w := by
  cases h with
  | string s | longString s => exact ⟨.text s, rfl, rfl, fun _ => rfl⟩
  | stringBytes s => exact ⟨_, keeps_stringBytes s⟩
  | byteArray b => exact ⟨.bytes b, rfl, rfl, fun _ => rfl⟩
  | character _ c => exact ⟨.char c, rfl, rfl, fun _ => rfl⟩
  | boolean _ b => exact ⟨.bool b, rfl, rfl, fun _ => rfl⟩
  | booleanChar b =>
    refine ⟨.char (f.boolChar b), rfl, rfl, fun _ => ?_⟩
    exact congrArg (fun b => Except.ok (Value.bool b)) (built.boolChar_eq_trueChar b)
  | booleanInteger b =>
    cases b with
    | false => exact ⟨boolInt false, rfl, rfl, fun _ => rfl⟩
    | true => exact ⟨boolInt true, rfl, rfl, fun _ => rfl⟩
  | integral w primitive n => exact ⟨_, keeps_integral w primitive n⟩
  | single _ x => exact ⟨.float x, rfl, rfl, fun _ => rfl⟩
  | double _ x => exact ⟨.double x, rfl, rfl, fun _ => rfl⟩
  | date t => exact ⟨.timestamp t, rfl, rfl, fun _ => rfl⟩
  | dateLong t whole => exact ⟨_, keeps_dateLong whole⟩
  | dateInteger t whole fits => exact ⟨_, keeps_dateInteger whole fits⟩
  | enumString k declared => exact ⟨_, keeps_enumString built (distinct rfl) declared⟩
  | enumInteger k declared => exact ⟨_, keeps_enumInteger built declared⟩
  | uuid u => exact ⟨_, keeps_uuid u⟩
  | uuidNative u => exact ⟨.uuid u, rfl, rfl, fun _ => rfl⟩
  | bigInteger n => exact ⟨_, keeps_bigInteger n⟩
  | bigDecimal x => exact ⟨_, keeps_bigDecimal (legible x rfl)⟩
  | bigDecimalNumeric x => exact ⟨.decimal x, rfl, rfl, fun _ => rfl⟩

end Codec

/-! ### Layers -/

namespace Converter

variable {d : FieldDecl} {dialect : Dialect} {c : Codec} {f : Field} {v : Value}

/-- A value in its own shape is kept by the converter of any dialect. -/
theorem exists_keeps (built : d.Built dialect c f) (distinct : c = .enumString → d.enumConstants.Nodup)
    (legible : v.DecimalLegible) (h : c.Holds d.enumConstants v) :
    ∃ w, (dialect.converter c).Keeps f v w := by
  obtain plain | ⟨p, rfl, layered⟩ | ⟨p, rfl, layered⟩ := dialect.converter_cases c
  · rw [plain]
    exact Codec.exists_keeps built distinct legible h
  · obtain ⟨b, rfl⟩ : ∃ b, v = .bool b := by cases h; exact ⟨_, rfl⟩
    rw [layered]
    cases b with
    | false => exact ⟨boolByte false, rfl, rfl, fun _ => rfl⟩
    | true => exact ⟨boolByte true, rfl, rfl, fun _ => rfl⟩
  · obtain ⟨c, rfl⟩ : ∃ c, v = .char c := by cases h; exact ⟨_, rfl⟩
    rw [layered]
    exact ⟨.text (String.ofList [c]), rfl, rfl, fun _ =>
      bind_eq_ok.mpr ⟨c, f.parseChar_ofList c, rfl⟩⟩

end Converter

/-! ### Fields -/

namespace Field

variable {d : FieldDecl} {dialect : Dialect} {f : Field} {v : Value}

theorem toStored_of_nonnull (h : v.isNull = false) : f.toStored v = f.converter.toStored f v := by
  simp [toStored, h]

theorem ofStored_of_nonnull {position : Nat} (h : v.isNull = false) :
    f.ofStored v position = f.converter.ofStored f v position := by
  simp [ofStored, h]

end Field

theorem Codec.Holds.nonnull {names : List String} {c : Codec} {v : Value} (h : c.Holds names v) :
    v.isNull = false := by
  cases h with
  | integral w _ n => cases w <;> rfl
  | _ => rfl

namespace FieldDecl

variable {d : FieldDecl} {dialect : Dialect} {c : Codec} {f : Field} {v : Value}

/-- The shape of a type is that of its codec. -/
theorem Holds.of_codec (shape : d.Holds v) (codec : d.type.codec? = some c) :
    c.Holds d.enumConstants v := by
  obtain ⟨c', codec', holds⟩ := shape
  obtain rfl : c = c' := Option.some.inj (codec.symm.trans codec')
  exact holds

/-- A type that stores names of constants is one of enumerations. -/
theorem Built.nodup_of_enumString (built : d.Built dialect c f)
    (distinct : d.type.isEnum = true → d.enumConstants.Nodup) (hc : c = .enumString) :
    d.enumConstants.Nodup := by
  subst hc
  exact distinct (by rw [← Codec.codec?_eq_some_iff.mp built.codec]; rfl)

/-- A field that is built keeps the values in the own shape of its type. -/
theorem exists_keeps (built : d.toField dialect = .ok f)
    (distinct : d.type.isEnum = true → d.enumConstants.Nodup)
    (shape : d.Holds v) (legible : v.DecimalLegible) :
    v.isNull = false ∧ ∃ w, f.converter.Keeps f v w := by
  obtain ⟨c, built⟩ := built_of_toField built
  have holds := shape.of_codec built.codec
  rw [built.converter]
  exact ⟨holds.nonnull,
    Converter.exists_keeps built (built.nodup_of_enumString distinct) legible holds⟩

end FieldDecl

/-- A value in the own shape of its field's type comes back as it was from what is stored for it. -/
theorem Field.ofStored_toStored {d : FieldDecl} {dialect : Dialect} {f : Field} {v : Value}
    (built : d.toField dialect = .ok f) (distinct : d.type.isEnum = true → d.enumConstants.Nodup)
    (shape : d.Holds v) (legible : v.DecimalLegible) (position : Nat) :
    ∃ w, f.toStored v = .ok w ∧ f.ofStored w position = .ok v := by
  obtain ⟨nonnull, w, kept⟩ := FieldDecl.exists_keeps built distinct shape legible
  refine ⟨w, ?_, ?_⟩
  · rw [toStored_of_nonnull nonnull]
    exact kept.stores
  · rw [ofStored_of_nonnull kept.nonnull]
    exact kept.gives position

/-- The second of two constants comes back from its ordinal, and `1.50` from its text with both of
its places. -/
theorem Field.constant_and_decimal_come_back :
    (∃ f w, FieldDecl.toField
          { name := "colour", type := .enumInteger, enumConstants := ["RED", "GREEN"] } .derby =
            .ok f ∧
        f.toStored (.enum ⟨"GREEN", 1⟩) = .ok w ∧ f.ofStored w 0 = .ok (.enum ⟨"GREEN", 1⟩)) ∧
      ∃ f w, FieldDecl.toField { name := "price", type := .bigDecimal } .sqlite = .ok f ∧
        f.toStored (.decimal ⟨false, 150, 2, by decide, by decide⟩) = .ok w ∧
        f.ofStored w 0 = .ok (.decimal ⟨false, 150, 2, by decide, by decide⟩) := by
  constructor
  · obtain ⟨f, built⟩ : ∃ f, FieldDecl.toField
        { name := "colour", type := .enumInteger, enumConstants := ["RED", "GREEN"] } .derby =
          .ok f := ⟨_, rfl⟩
    have declared : (⟨"GREEN", 1⟩ : EnumConstant) ∈
        (Enumeration.mk ["RED", "GREEN"]).constants := by decide
    obtain ⟨w, stored, given⟩ := Field.ofStored_toStored built (fun _ => by decide)
      ⟨_, rfl, .enumInteger _ declared⟩ (fun _ h => nomatch h) 0
    exact ⟨f, w, built, stored, given⟩
  · obtain ⟨f, built⟩ : ∃ f, FieldDecl.toField { name := "price", type := .bigDecimal }
        .sqlite = .ok f := ⟨_, rfl⟩
    obtain ⟨w, stored, given⟩ := Field.ofStored_toStored built (fun h => nomatch h)
      ⟨_, rfl, .bigDecimal ⟨false, 150, 2, by decide, by decide⟩⟩
      (fun x hx => by cases hx; exact Scaled.read?_text (by decide)) 0
    exact ⟨f, w, built, stored, given⟩

end Relmap
