import Relmap.Field.Declare
import Relmap.Proofs.Outcome

/-!
# What a field that builds is like

A field keeps its declaration, its converter is the one the dialect has for the codec of its type,
and its formatting is what the format of the declaration comes to (`Built`). From the formatting
follows what the conversions rely on: dates have the pattern of the format, the two characters of a
boolean differ, and an enumeration has as many ordinals as constants.
-/

namespace Relmap

open Outcome

theorem refuseIf_eq_ok {b : Bool} {cause : ConfigFailure} {u : Unit} :
    refuseIf b cause = .ok u ↔ b = false := by
  cases b <;> simp [refuseIf]

/-- The field `f` is what the declaration `d` becomes under a dialect, where its type has the codec
`c`. -/
structure FieldDecl.Built (d : FieldDecl) (dialect : Dialect) (c : Codec) (f : Field) : Prop where
  decl : f.toFieldDecl = d
  codec : d.type.codec? = some c
  converter : f.converter = dialect.converter c
  check : d.check c = .ok ()
  format : d.readFormat c = .ok f.formatting

namespace FieldDecl

variable {d : FieldDecl} {dialect : Dialect} {c : Codec} {f : Field}

/-- Every field that builds has a codec and was built with it. -/
theorem built_of_toField (h : d.toField dialect = .ok f) : ∃ c, d.Built dialect c f := by
  unfold toField at h
  cases codec : d.type.codec? with
  | none =>
    rw [codec] at h
    cases h
  | some c =>
    rw [codec] at h
    obtain ⟨⟨⟩, check, h⟩ := bind_eq_ok.mp h
    obtain ⟨formatting, format, h⟩ := bind_eq_ok.mp h
    split at h
    · cases h
      exact ⟨c, rfl, codec, rfl, check, format⟩
    · obtain ⟨v, -, h⟩ := bind_eq_ok.mp h
      cases h
      exact ⟨c, rfl, codec, rfl, check, format⟩

/-- The converter of a field is the one that the dialect has for the codec of its type. -/
theorem converter_of_toField (h : d.toField dialect = .ok f) (codec : d.type.codec? = some c) :
    f.converter = dialect.converter c := by
  obtain ⟨c', built⟩ := built_of_toField h
  obtain rfl : c' = c := Option.some.inj (built.codec.symm.trans codec)
  exact built.converter

/-- The default of a field that builds is what its converter, before there is a default, reads from
the text of the default. -/
theorem parseDefault_of_toField {w : Value} (h : d.toField dialect = .ok f)
    (default : f.defaultValue = some w) :
    ∃ text, d.defaultText = some text ∧
      f.converter.parseDefault { f with defaultValue := none } text = .ok w := by
  unfold toField at h
  cases codec : d.type.codec? with
  | none =>
    rw [codec] at h
    cases h
  | some c =>
    rw [codec] at h
    obtain ⟨⟨⟩, -, h⟩ := bind_eq_ok.mp h
    obtain ⟨formatting, -, h⟩ := bind_eq_ok.mp h
    split at h
    · cases h
      cases default
    next text hasText =>
      obtain ⟨v, read, h⟩ := bind_eq_ok.mp h
      cases h
      cases default
      exact ⟨text, hasText, Outcome.mapError_eq_ok.mp read⟩

/-- The characters read from a format differ. -/
theorem readBoolChars_eq_ok {format : FieldFormat} (h : d.readBoolChars = .ok format) :
    ∃ t u, t ≠ u ∧ format = .booleanChars t u := by
  unfold readBoolChars at h
  split at h
  · cases h
    exact ⟨'1', '0', by decide, rfl⟩
  · split at h
    next t u chars =>
      cases h
      refine ⟨t, u, ?_, rfl⟩
      unfold readBoolChars? at chars
      split at chars
      · split at chars
        · cases chars
          assumption
        · cases chars
      · cases chars
    · cases h

/-- The pattern read from a format is the one of the format, or the standard one. -/
theorem readPattern_cases {format : FieldFormat} (h : d.readPattern = .ok format) :
    (d.format = none ∧ format = .date .standard) ∨
      ∃ text p, d.format = some text ∧ Calendar.Pattern.ofText? text = some p ∧
        format = .date p := by
  unfold readPattern at h
  split at h
  next none =>
    cases h
    exact .inl ⟨none, rfl⟩
  next text some =>
    split at h
    next p parsed =>
      cases h
      exact .inr ⟨text, p, some, parsed, rfl⟩
    next => cases h

/-- An enumeration that is accepted has as many ordinals as constants. -/
theorem readConstants_eq_ok {format : FieldFormat} (h : d.readConstants = .ok format) :
    format = .constants ⟨d.enumConstants⟩ ∧
      (Enumeration.mk d.enumConstants).size = d.enumConstants.length := by
  unfold readConstants at h
  obtain ⟨⟨⟩, -, h⟩ := bind_eq_ok.mp h
  obtain ⟨⟨⟩, sizes, h⟩ := bind_eq_ok.mp h
  have sizes := refuseIf_eq_ok.mp sizes
  refine ⟨?_, by simpa using sizes⟩
  dsimp only at h
  split at h
  · obtain ⟨⟨⟩, -, h⟩ := bind_eq_ok.mp h
    exact (pure_eq_ok.mp h).symm
  · exact (pure_eq_ok.mp h).symm

namespace Built

/-- The character stored for true is not the one stored for false. -/
theorem boolChar_eq_trueChar (built : d.Built dialect .booleanChar f) (b : Bool) :
    decide (f.boolChar b = f.trueChar) = b := by
  obtain ⟨format, chars, formatting⟩ := map_eq_ok.mp built.format
  obtain ⟨t, u, differ, rfl⟩ := readBoolChars_eq_ok chars
  cases b <;> simp [Field.boolChar, Field.trueChar, ← formatting, differ.symm]

/-- The pattern of a field of dates. -/
theorem datePattern (built : d.Built dialect c f) (hc : c = .date ∨ c = .dateString) :
    (d.format = none ∧ f.datePattern = .standard) ∨
      ∃ format, d.format = some format ∧ Calendar.Pattern.ofText? format = some f.datePattern := by
  have format : some <$> d.readPattern = .ok f.formatting := by
    rcases hc with rfl | rfl <;> exact built.format
  obtain ⟨format, pattern, formatting⟩ := map_eq_ok.mp format
  rw [Field.datePattern, ← formatting]
  rcases readPattern_cases pattern with ⟨none, rfl⟩ | ⟨text, p, some, parsed, rfl⟩
  · exact .inl ⟨none, rfl⟩
  · exact .inr ⟨text, some, parsed⟩

/-- The enumeration of a field is the one that is declared, and no ordinal is used twice in it. -/
theorem enumeration (built : d.Built dialect c f) (hc : c = .enumString ∨ c = .enumInteger) :
    f.enumeration = .ok ⟨d.enumConstants⟩ ∧
      (Enumeration.mk d.enumConstants).size = d.enumConstants.length := by
  have format : some <$> d.readConstants = .ok f.formatting := by
    rcases hc with rfl | rfl <;> exact built.format
  obtain ⟨format, constants, formatting⟩ := map_eq_ok.mp format
  obtain ⟨rfl, sizes⟩ := readConstants_eq_ok constants
  exact ⟨by rw [Field.enumeration, ← formatting], sizes⟩

end Built

end FieldDecl

end Relmap
