import Relmap.Field.Declare
import Relmap.Proofs.Field.Wire
import Relmap.Proofs.Statement.LateSets
import Relmap.Proofs.Value.Literal

/-!
# The literals of arguments

Whether the literal of an argument stands between quotes is told by the codec of its field, but the
text between them is that of the stored value, which layers around the codec may have changed. The
two agree: a codec that tells of no quotes stores no value that needs them
(`Codec.quotedByItself_toStored`), and no layer makes such a value
(`Converter.quotedByItself_toStoredThrough`). A value that an argument holds is one that its field
has converted, however often it was set (`Argument.Made.converted`).

The main statement is `Argument.literal_one_token`.
-/

namespace Relmap

open Outcome (bind_eq_ok map_eq_ok pure_eq_ok)

/-! ### Stored values without quotes -/

section

variable {f : Field} {v w : Value}

/-- A codec that tells of no quotes stores no value that needs them. -/
theorem Codec.quotedByItself_toStored {c : Codec} (hc : c.isQuoted = false)
    (h : c.toStored f v = .ok w) : w.quotedByItself = false := by
  have hcarries := toStored_carries h
  cases c with
  | string | longString | character _ | booleanChar | date | dateString | enumString | uuid
  | uuidNative | bigInteger | bigDecimal => cases hc
  | integral width _ =>
    cases hcarries
    cases width <;> rfl
  | _ =>
    cases hcarries
    rfl

theorem quotedByItself_charAsText (v : Value) :
    (charAsText v).quotedByItself = v.quotedByItself := by
  cases v <;> rfl

/-- No layer makes a value that needs quotes of one that does not. -/
theorem Converter.quotedByItself_toStoredThrough {c : Codec} (hc : c.isQuoted = false)
    {layers : List Adapter} (h : toStoredThrough c f v layers = .ok w) :
    w.quotedByItself = false := by
  induction layers generalizing w with
  | nil => exact c.quotedByItself_toStored hc h
  | cons layer inner ih =>
    cases layer with
    | booleanNumber =>
      obtain ⟨b, -, rfl⟩ := map_eq_ok.mp h
      rfl
    | characterCompat =>
      obtain ⟨u, hu, rfl⟩ := map_eq_ok.mp h
      rw [quotedByItself_charAsText]
      exact ih hu
    | forwarding | retyped => exact ih h

/-- A field that tells of no quotes stores no value that needs them. -/
theorem Field.quotedByItself_toStored (hf : f.converter.codec.isQuoted = false)
    (h : f.toStored v = .ok w) : w.quotedByItself = false := by
  unfold Field.toStored at h
  split at h
  · split at h
    · cases h
      rfl
    · cases h
  · exact Converter.quotedByItself_toStoredThrough hf h

end

/-! ### Arguments -/

namespace Argument

variable {a b : Argument} {v w : Value}

/-- The arguments that can be made: raw ones and ones of a field, each with a value or to be set
later, and what setting them makes of them. -/
inductive Made : Argument → Prop
  | raw (v : Value) : Made (.raw v)
  | rawLate (type : SqlType) : Made (.rawLate type)
  | ofField {f : Field} {v : Value} {a : Argument} (h : Argument.ofField f v = .ok a) : Made a
  | ofFieldLate {f : Field} {v : Option Value} {a : Argument}
      (h : Argument.ofFieldLate f v = .ok a) : Made a
  | set {a b : Argument} {v : Value} (ha : Made a) (h : a.set v = .ok b) : Made b

/-- The value that an argument holds is one that was converted for it. -/
def Converted (a : Argument) : Prop := ∀ w, a.value = some w → ∃ v, a.convert v = .ok w

/-- Setting an argument converts the value for it. -/
theorem converted_of_set (h : a.set v = .ok b) : b.Converted := by
  rw [set_eq_convert] at h
  obtain ⟨w, hw, rfl⟩ := map_eq_ok.mp h
  rintro _ ⟨⟩
  exact ⟨v, hw⟩

/-- **Whatever was set, the value was converted.** -/
theorem Made.converted (h : a.Made) : a.Converted := by
  induction h with
  | raw v =>
    rintro _ ⟨⟩
    exact ⟨v, rfl⟩
  | rawLate type => rintro w ⟨⟩
  | ofField h =>
    obtain ⟨w, hw, h⟩ := bind_eq_ok.mp h
    obtain rfl := pure_eq_ok.mp h
    rintro _ ⟨⟩
    exact ⟨_, hw⟩
  | @ofFieldLate f v a h =>
    obtain ⟨w, hw, h⟩ := bind_eq_ok.mp h
    obtain rfl := pure_eq_ok.mp h
    rintro u hu
    cases v with
    | none =>
      obtain rfl : none = w := pure_eq_ok.mp hw
      cases hu
    | some v =>
      obtain ⟨stored, hstored, rfl⟩ := map_eq_ok.mp hw
      obtain rfl : stored = u := Option.some.inj hu
      exact ⟨v, hstored⟩
  | set ha h ih => exact converted_of_set h

/-- A value is written between quotes where it needs them. -/
theorem isQuoted_or (h : a.Converted) (hw : a.value = some w) :
    a.isQuoted = true ∨ w.quotedByItself = false := by
  obtain ⟨v, hv⟩ := h w hw
  unfold isQuoted
  unfold convert at hv
  cases htarget : a.target with
  | field f =>
    rw [htarget] at hv
    cases hquoted : f.converter.codec.isQuoted with
    | true => exact .inl hquoted
    | false => exact .inr (Field.quotedByItself_toStored hquoted hv)
  | raw type =>
    rw [hw]
    cases hquoted : w.quotedByItself <;> simp [hquoted]

/-- **The literal of an argument is one token.** Every argument that is set, however it was made and
however often it was set before, has a literal: NULL, octets in hexadecimal, its value as text
between quotes, or a number or a boolean as a word. -/
theorem literal_one_token (hmade : a.Made) (hset : a.isSet = true) :
    ∃ v s, a.value = some v ∧ a.literal = .ok s ∧ v.IsToken s.toList := by
  obtain ⟨v, hv⟩ := Option.isSome_iff_exists.mp hset
  have hliteral : a.literal = .ok (v.literal a.isQuoted) := by
    rw [literal, stored_eq_ok.mpr hv]
    rfl
  exact ⟨v, _, hv, hliteral, Value.isToken_literal (isQuoted_or hmade.converted hv)⟩

/-- A quote character that is set late, where characters are stored as text. -/
theorem quote_character_doubled : ∃ f a b c,
    FieldDecl.toField { name := "mark", type := .char } .derby = .ok f ∧
    Argument.ofFieldLate f none = .ok a ∧ a.set (.char 'x') = .ok b ∧ b.set (.char '\'') = .ok c ∧
    c.Made ∧ c.isSet = true ∧ c.literal = .ok "''''" ∧
    ∃ v s, c.value = some v ∧ c.literal = .ok s ∧ v.IsToken s.toList := by
  obtain ⟨f, a, b, c, hf, ha, hb, hc, hset, hliteral⟩ : ∃ f a b c,
      FieldDecl.toField { name := "mark", type := .char } .derby = .ok f ∧
      Argument.ofFieldLate f none = .ok a ∧ a.set (.char 'x') = .ok b ∧
      b.set (.char '\'') = .ok c ∧ c.isSet = true ∧ c.literal = .ok "''''" :=
    ⟨_, _, _, _, rfl, rfl, rfl, rfl, rfl, rfl⟩
  have hmade : c.Made := .set (.set (.ofFieldLate ha) hb) hc
  exact ⟨f, a, b, c, hf, ha, hb, hc, hmade, hset, hliteral, literal_one_token hmade hset⟩

end Argument

end Relmap
