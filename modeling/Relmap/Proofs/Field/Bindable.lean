import Relmap.Proofs.Field.Declare
import Relmap.Proofs.Field.Wire

/-!
# Values a dialect can bind

A dialect without booleans or without single characters cannot bind every kind of values
(`Dialect.binds`). Which kind of values a converter stores, and of which kind its defaults are, is
told by its codec and its layers (`Converter.toStored_carries`, `Converter.parseDefault_carries`).
The two differ: the layer for characters changes the values that are stored and passes the defaults
on. The layers that a dialect puts around its codecs keep every boolean from it, but not every
character (`FieldDecl.unbound_iff`): characters that stand for booleans have no layer, and the
default of a character stays one.
-/

namespace Relmap

open Outcome

namespace Dialect

/-- Whether a dialect can bind a value. -/
def binds (dialect : Dialect) : Value → Bool
  | .bool _ => !dialect.lacksBoolean
  | .char _ => !dialect.lacksCharacter
  | _ => true

/-- Whether a dialect can bind the values of a kind. -/
def bindsKind (dialect : Dialect) : Wire → Bool
  | .bool => !dialect.lacksBoolean
  | .char => !dialect.lacksCharacter
  | _ => true

/-- Whether a value can be bound depends on its kind only. -/
theorem binds_eq_bindsKind {dialect : Dialect} {k : Wire} {v : Value} (h : k.Carries v) :
    dialect.binds v = dialect.bindsKind k := by
  cases h with
  | word w n => cases w <;> rfl
  | _ => rfl

end Dialect

/-- Booleans are the values of one kind only. -/
theorem Wire.eq_bool {k : Wire} {b : Bool} (h : k.Carries (.bool b)) : k = .bool := by
  generalize value : Value.bool b = v at h
  cases h with
  | word w n => cases w <;> cases value
  | bool _ => rfl
  | _ => cases value

namespace Codec

variable {f : Field} {w : Value}

/-- The default a codec reads is of the kind it stores. -/
theorem parseDefault_carries {c : Codec} {s : String} (h : c.parseDefault f s = .ok w) :
    c.wire.Carries w := by
  unfold parseDefault at h
  cases c with
  | stringBytes | serializable => cases h
  | string | longString | byteArray =>
    rw [← pure_eq_ok.mp h]
    constructor
  | dateString =>
    obtain ⟨_, -, h⟩ := bind_eq_ok.mp h
    obtain ⟨_, -, h⟩ := bind_eq_ok.mp h
    rw [← pure_eq_ok.mp h]
    constructor
  | booleanInteger | enumInteger | dateInteger =>
    obtain ⟨_, -, rfl⟩ := map_eq_ok.mp h
    exact .word .int _
  | dateLong =>
    obtain ⟨_, -, rfl⟩ := map_eq_ok.mp h
    exact .word .long _
  | _ =>
    obtain ⟨_, -, rfl⟩ := map_eq_ok.mp h
    constructor

end Codec

/-! ### Kinds through layers -/

namespace Adapter

/-- The kind of the stored values outside a layer, from the kind inside. -/
def storedKind : Adapter → Wire → Wire
  | .booleanNumber, _ => .word .byte
  | .characterCompat, .char => .text
  | _, k => k

/-- The kind of the default outside a layer, from the kind inside. -/
def defaultKind : Adapter → Wire → Wire
  | .booleanNumber, _ => .word .byte
  | _, k => k

end Adapter

/-- A boolean as a number is a byte. -/
theorem boolByte_carries (b : Bool) : (Wire.word .byte).Carries (boolByte b) := .word .byte _

/-- A character becomes a text, and every other value stays. -/
theorem charAsText_carries {k : Wire} {v : Value} (h : k.Carries v) :
    (Adapter.characterCompat.storedKind k).Carries (charAsText v) := by
  cases h with
  | word w n => cases w <;> exact .word _ n
  | _ => constructor

namespace Converter

variable {f : Field} {v w : Value}

/-- The kind of the values a converter stores. -/
def storedKind (c : Converter) : Wire := c.layers.foldr Adapter.storedKind c.codec.wire

/-- The kind of the defaults a converter reads. -/
def defaultKind (c : Converter) : Wire := c.layers.foldr Adapter.defaultKind c.codec.wire

/-- **What a converter stores is of its kind**, whatever the layers. -/
theorem toStored_carries {c : Converter} (h : c.toStored f v = .ok w) : c.storedKind.Carries w := by
  obtain ⟨codec, layers⟩ := c
  show (layers.foldr Adapter.storedKind codec.wire).Carries w
  change toStoredThrough codec f v layers = .ok w at h
  -- From the innermost layer outwards; a layer only sees what comes from inside.
  induction layers generalizing w with
  | nil => exact Codec.toStored_carries h
  | cons a inner ih =>
    cases a with
    | booleanNumber =>
      obtain ⟨b, -, rfl⟩ := map_eq_ok.mp h
      exact boolByte_carries b
    | characterCompat =>
      obtain ⟨u, stored, rfl⟩ := map_eq_ok.mp h
      exact charAsText_carries (ih stored)
    | forwarding _ | retyped _ _ => exact ih h

/-- **The default a converter reads is of its kind**, whatever the layers. -/
theorem parseDefault_carries {c : Converter} {s : String} (h : c.parseDefault f s = .ok w) :
    c.defaultKind.Carries w := by
  obtain ⟨codec, layers⟩ := c
  show (layers.foldr Adapter.defaultKind codec.wire).Carries w
  change parseDefaultThrough codec f s layers = .ok w at h
  induction layers generalizing w with
  | nil => exact Codec.parseDefault_carries h
  | cons a inner ih =>
    cases a with
    | booleanNumber =>
      obtain ⟨u, -, h⟩ := bind_eq_ok.mp h
      obtain ⟨b, -, h⟩ := bind_eq_ok.mp h
      rw [← pure_eq_ok.mp h]
      exact boolByte_carries b
    | characterCompat | forwarding _ | retyped _ _ => exact ih h

end Converter

namespace Dialect

variable {dialect : Dialect} {c : Codec}

/-- Booleans travel as a byte where they cannot be bound, whether stored or default. -/
theorem kind_boolean (p : Bool) :
    (dialect.converter (.boolean p)).storedKind =
        (if dialect.lacksBoolean then .word .byte else .bool) ∧
      (dialect.converter (.boolean p)).defaultKind =
        (if dialect.lacksBoolean then .word .byte else .bool) := by
  by_cases lacks : dialect.lacksBoolean = true
  · rw [converter, if_pos lacks, if_pos lacks]
    exact ⟨rfl, rfl⟩
  · rw [converter, if_neg lacks, if_neg lacks]
    exact ⟨rfl, rfl⟩

/-- Characters are stored as text where they cannot be bound, and stay characters as default. -/
theorem kind_character (p : Bool) :
    (dialect.converter (.character p)).storedKind =
        (if dialect.lacksCharacter then .text else .char) ∧
      (dialect.converter (.character p)).defaultKind = .char := by
  by_cases lacks : dialect.lacksCharacter = true
  · rw [converter, if_pos lacks, if_pos lacks]
    exact ⟨rfl, rfl⟩
  · rw [converter, if_neg lacks, if_neg lacks]
    exact ⟨rfl, rfl⟩

/-- The converters of a dialect store what it can bind, but for the characters of booleans. -/
theorem bindsKind_storedKind :
    dialect.bindsKind (dialect.converter c).storedKind = false ↔
      dialect.lacksCharacter = true ∧ c = .booleanChar := by
  cases c with
  | boolean p =>
    rw [(kind_boolean p).1]
    by_cases lacks : dialect.lacksBoolean = true <;> simp [lacks, bindsKind]
  | character p =>
    rw [(kind_character p).1]
    by_cases lacks : dialect.lacksCharacter = true <;> simp [lacks, bindsKind]
  | _ => simp [converter, Converter.plain, Converter.storedKind, Codec.wire, bindsKind]

/-- The converters of a dialect read defaults it can bind, but for characters. -/
theorem bindsKind_defaultKind :
    dialect.bindsKind (dialect.converter c).defaultKind = false ↔
      dialect.lacksCharacter = true ∧ (c = .booleanChar ∨ ∃ p, c = .character p) := by
  cases c with
  | boolean p =>
    rw [(kind_boolean p).2]
    by_cases lacks : dialect.lacksBoolean = true <;> simp [lacks, bindsKind]
  | character p =>
    rw [(kind_character p).2]
    simp [bindsKind]
  | _ => simp [converter, Converter.plain, Converter.defaultKind, Codec.wire, bindsKind]

/-- No boolean is left without a layer where booleans cannot be bound. -/
theorem kind_ne_bool (lacks : dialect.lacksBoolean = true) :
    (dialect.converter c).storedKind ≠ .bool ∧ (dialect.converter c).defaultKind ≠ .bool := by
  -- What cannot be bound has a codec of characters, and its kind is another one.
  have unbound : dialect.bindsKind .bool = false := by rw [bindsKind, lacks, Bool.not_true]
  constructor
  · intro isBool
    obtain ⟨-, rfl⟩ := bindsKind_storedKind.mp (isBool ▸ unbound)
    cases isBool
  · intro isBool
    rcases bindsKind_defaultKind.mp (isBool ▸ unbound) with ⟨-, rfl | ⟨p, rfl⟩⟩
    · cases isBool
    · cases (kind_character p).2.symm.trans isBool

end Dialect

/-- Stored is null for null, and what the converter makes of any other value. -/
theorem Field.toStored_cases {f : Field} {v w : Value} (h : f.toStored v = .ok w) :
    (v = .null ∧ w = .null) ∨ (v ≠ .null ∧ f.converter.toStored f v = .ok w) := by
  unfold toStored at h
  by_cases null : v = .null
  · rw [if_pos (Value.isNull_iff.mpr null)] at h
    split at h
    · exact .inl ⟨null, (Except.ok.inj h).symm⟩
    · cases h
  · rw [if_neg (mt Value.isNull_iff.mp null)] at h
    exact .inr ⟨null, h⟩

/-- The codec of a type is the one that belongs to it. -/
theorem Codec.eq_iff_of_codec? {t : DataType} {c k : Codec} (h : t.codec? = some c) :
    c = k ↔ t = k.type := by
  constructor
  · rintro rfl
    exact (codec?_eq_some_iff.mp h).symm
  · intro type
    have codec : t.codec? = some k := codec?_eq_some_iff.mpr type.symm
    exact Option.some.inj (h.symm.trans codec)

namespace FieldDecl

variable {d : FieldDecl} {dialect : Dialect} {f : Field}

/-- **Which values a field has that its dialect cannot bind.** Never booleans. Where the dialect
cannot bind single characters: the characters that stand for booleans, stored or default, and the
default of a character, though not a character that is stored. -/
theorem unbound_iff (built : d.toField dialect = .ok f) :
    (∀ v w, f.toStored v = .ok w →
      (dialect.binds w = false ↔
        dialect.lacksCharacter = true ∧ d.type = .booleanChar ∧ v ≠ .null)) ∧
    (∀ w, f.defaultValue = some w →
      (dialect.binds w = false ↔ dialect.lacksCharacter = true ∧
        (d.type = .booleanChar ∨ d.type = .charObj ∨ d.type = .char))) ∧
    (dialect.lacksBoolean = true →
      ∀ b, (∀ v, f.toStored v ≠ .ok (.bool b)) ∧ f.defaultValue ≠ some (.bool b)) := by
  obtain ⟨c, made⟩ := built_of_toField built
  have boolean : c = .booleanChar ↔ d.type = .booleanChar := Codec.eq_iff_of_codec? made.codec
  have character : (∃ p, c = .character p) ↔ d.type = .charObj ∨ d.type = .char := by
    rw [Bool.exists_bool, Codec.eq_iff_of_codec? made.codec, Codec.eq_iff_of_codec? made.codec]
    rfl
  have stored {v w : Value} (h : f.converter.toStored f v = .ok w) :
      (dialect.converter c).storedKind.Carries w := made.converter ▸ Converter.toStored_carries h
  have default {w : Value} (h : f.defaultValue = some w) :
      (dialect.converter c).defaultKind.Carries w := by
    obtain ⟨text, -, read⟩ := parseDefault_of_toField built h
    exact made.converter ▸ Converter.parseDefault_carries read
  refine ⟨fun v w h => ?_, fun w h => ?_, fun lacks b => ⟨fun v h => ?_, fun h => ?_⟩⟩
  · rcases Field.toStored_cases h with ⟨rfl, rfl⟩ | ⟨nonnull, h⟩
    · simp [Dialect.binds]
    · rw [Dialect.binds_eq_bindsKind (stored h), Dialect.bindsKind_storedKind, boolean]
      simp [nonnull]
  · rw [Dialect.binds_eq_bindsKind (default h), Dialect.bindsKind_defaultKind, boolean, character]
  · rcases Field.toStored_cases h with ⟨-, h⟩ | ⟨-, h⟩
    · cases h
    · exact (Dialect.kind_ne_bool lacks).1 (Wire.eq_bool (stored h))
  · exact (Dialect.kind_ne_bool lacks).2 (Wire.eq_bool (default h))

/-- Whatever a character field of Derby stores can be bound, and its default cannot. -/
theorem derby_character_stored_as_text :
    ∃ f w, FieldDecl.toField { name := "grade", type := .char, defaultText := some "Q" } .derby =
        .ok f ∧
      (∀ v w, f.toStored v = .ok w → Dialect.derby.binds w = true) ∧
      f.defaultValue = some w ∧ Dialect.derby.binds w = false := by
  obtain ⟨f, w, built, default⟩ : ∃ f w, FieldDecl.toField
      { name := "grade", type := .char, defaultText := some "Q" } .derby = .ok f ∧
        f.defaultValue = some w := ⟨_, _, rfl, rfl⟩
  obtain ⟨stored, read, -⟩ := unbound_iff built
  refine ⟨f, w, built, fun v w h => ?_, default, (read w default).mpr ⟨rfl, .inr (.inr rfl)⟩⟩
  by_contra unbound
  obtain ⟨-, type, -⟩ := (stored v w h).mp (Bool.eq_false_iff.mpr unbound)
  cases type

/-- Derby cannot bind single characters, yet a boolean kept as a character is stored as one. -/
theorem derby_boolean_stored_as_character :
    ∃ f, FieldDecl.toField { name := "flag", type := .booleanChar } .derby = .ok f ∧
      f.toStored (.bool true) = .ok (.char '1') ∧ Dialect.derby.binds (.char '1') = false :=
  ⟨_, rfl, rfl, rfl⟩

end FieldDecl

end Relmap
