import Relmap.Config
import Relmap.Proofs.Calendar.Zone
import Relmap.Proofs.Field.Declare
import Relmap.Proofs.Field.Wire

/-!
# What is wrong with a declaration

Whatever is wrong with the declaration of a field or of a table is a failure of configuration, with
one exception (`TableDecl.fault_outside_configuration_iff`). A default of a date kept as text is
read by the pattern of the field and then written by it; a pattern that asks for a time zone can be
read but not written, and that failure is one of conversion.
-/

namespace Relmap

open Outcome

/-- Whether a failure is one of configuration. -/
def Failure.isConfig : Failure → Bool
  | .config _ => true
  | _ => false

/-- Whether a failure becomes one of configuration when a default is read. -/
def Failure.isUnreadable : Failure → Bool
  | .parse _ | .statement _ => true
  | _ => false

theorem FieldDecl.isConfig_defaultFailure {e : Failure} (h : e.isUnreadable = true) :
    (defaultFailure e).isConfig = true := by
  cases e <;> first | rfl | cases h

/-! ### Checks -/

theorem failsOnly_refuseIf (b : Bool) (cause : ConfigFailure) :
    FailsOnly (·.isConfig = true) (refuseIf b cause) := by
  cases b with
  | false => exact .ok ()
  | true => exact .error rfl

namespace FieldDecl

variable (d : FieldDecl)

theorem failsOnly_check (c : Codec) : FailsOnly (·.isConfig = true) (d.check c) := by
  unfold check
  refine .bind (failsOnly_refuseIf _ _) fun _ _ => ?_
  refine .bind (failsOnly_refuseIf _ _) fun _ _ => ?_
  refine .bind (failsOnly_refuseIf _ _) fun _ _ => ?_
  refine .bind (failsOnly_refuseIf _ _) fun _ _ => ?_
  refine .bind (failsOnly_refuseIf _ _) fun _ _ => ?_
  exact .bind (failsOnly_refuseIf _ _) fun _ _ => failsOnly_refuseIf _ _

theorem failsOnly_readPattern : FailsOnly (·.isConfig = true) d.readPattern := by
  unfold readPattern
  split
  · exact .ok _
  · split
    · exact .ok _
    · exact .error rfl

theorem failsOnly_readBoolChars : FailsOnly (·.isConfig = true) d.readBoolChars := by
  unfold readBoolChars
  split
  · exact .ok _
  · split
    · exact .ok _
    · exact .error rfl

theorem failsOnly_readCharset : FailsOnly (·.isConfig = true) d.readCharset := by
  unfold readCharset
  split
  · exact .ok _
  · split
    · exact .ok _
    · exact .error rfl

theorem failsOnly_readConstants : FailsOnly (·.isConfig = true) d.readConstants := by
  unfold readConstants
  refine .bind (failsOnly_refuseIf _ _) fun _ _ => ?_
  refine .bind (failsOnly_refuseIf _ _) fun _ _ => ?_
  dsimp only
  split
  · exact .bind (failsOnly_refuseIf _ _) fun _ _ => .ok _
  · exact .ok _

theorem failsOnly_readFormat (c : Codec) : FailsOnly (·.isConfig = true) (d.readFormat c) := by
  cases c with
  | date | dateString => exact .map d.failsOnly_readPattern
  | booleanChar => exact .map d.failsOnly_readBoolChars
  | stringBytes => exact .map d.failsOnly_readCharset
  | enumString | enumInteger => exact .map d.failsOnly_readConstants
  | _ => exact .ok none

end FieldDecl

/-! ### Defaults -/

namespace Field

variable {α : Type} (f : Field) (s : String)

theorem failsOnly_parse (expected : String) (read? : List Char → Option α) :
    FailsOnly (·.isUnreadable = true) (f.parse expected read? s) := by
  unfold parse
  split
  · exact .ok _
  · exact .error rfl

theorem failsOnly_parseChar : FailsOnly (·.isUnreadable = true) (f.parseChar s) := by
  unfold parseChar
  split
  · exact .ok _
  · exact .error rfl

theorem failsOnly_enumeration : FailsOnly (·.isUnreadable = true) f.enumeration := by
  unfold enumeration
  split
  · exact .ok _
  · exact .error rfl

theorem failsOnly_parseConstant : FailsOnly (·.isUnreadable = true) (f.parseConstant s) := by
  refine .bind f.failsOnly_enumeration fun e _ => ?_
  split
  · exact .ok _
  · exact .error rfl

theorem failsOnly_parseOrdinal : FailsOnly (·.isUnreadable = true) (f.parseOrdinal s) := by
  refine .bind (f.failsOnly_parse s _ _) fun n _ => .bind f.failsOnly_enumeration fun e _ => ?_
  split
  · exact .ok _
  · exact .error rfl

end Field

/-- A default that is not a date kept as text is read, or it is no such default. -/
theorem Codec.failsOnly_parseDefault {c : Codec} (hc : c ≠ .dateString) (f : Field) (s : String) :
    FailsOnly (·.isUnreadable = true) (c.parseDefault f s) := by
  cases c with
  | string | longString | byteArray => exact .ok _
  | stringBytes | serializable => exact .error rfl
  | character _ => exact .map (f.failsOnly_parseChar s)
  | enumString => exact .map (f.failsOnly_parseConstant s)
  | enumInteger => exact .map (f.failsOnly_parseOrdinal s)
  | dateString => exact absurd rfl hc
  | _ => exact .map (f.failsOnly_parse s _ _)

/-- The same under a dialect: a boolean default is one before it becomes a byte. -/
theorem Dialect.failsOnly_parseDefault (dialect : Dialect) {c : Codec} (hc : c ≠ .dateString)
    (f : Field) (s : String) :
    FailsOnly (·.isUnreadable = true) ((dialect.converter c).parseDefault f s) := by
  obtain plain | ⟨p, rfl, layered⟩ | ⟨p, rfl, layered⟩ := dialect.converter_cases c
  · rw [plain]
    exact Codec.failsOnly_parseDefault hc f s
  · rw [layered]
    refine .bind (Codec.failsOnly_parseDefault hc f s) fun u read => ?_
    have boolean : Value.bool <$> f.parseBool s = .ok u := read
    obtain ⟨b, -, rfl⟩ := map_eq_ok.mp boolean
    exact .ok _
  · rw [layered]
    exact Codec.failsOnly_parseDefault hc f s

/-- A date kept as text is read by the pattern, and then the pattern has to write it. -/
theorem Codec.failsOnly_parseDefault_dateString {f : Field} {p : Calendar.Pattern}
    (pattern : f.datePattern = p) (s : String) :
    FailsOnly (fun e => e.isUnreadable = true ∨ (p.asksZone = true ∧
        (∃ t, Field.readTime? p.items (Text.trim s.toList) = some t) ∧
        e = .conversion (.dateNotWritable f.name p.text)))
      (Codec.parseDefault .dateString f s) := by
  subst pattern
  refine .bind ((f.failsOnly_parse s _ _).imp fun _ => .inl) fun t read => ?_
  refine .bind ?_ fun _ _ => .ok _
  unfold Field.timeText
  split
  · exact .ok _
  next unwritten =>
    exact .error (.inr ⟨Calendar.Pattern.write?_eq_none_iff.mp unwritten,
      ⟨t, found_eq_ok.mp read⟩, rfl⟩)

/-! ### Fields -/

namespace FieldDecl

/-- The declaration of a date kept as text whose default the pattern `p` reads and cannot write. -/
structure UnwritableDefault (d : FieldDecl) (p : Calendar.Pattern) : Prop where
  type : d.type = .dateString
  check : d.check .dateString = .ok ()
  pattern : d.readPattern = .ok (.date p)
  zone : p.asksZone = true
  default : ∃ text t, d.defaultText = some text ∧
    Field.readTime? p.items (Text.trim text.toList) = some t

variable {d : FieldDecl} {dialect : Dialect} {p : Calendar.Pattern}

theorem readPattern_eq_ok {format : FieldFormat} (h : d.readPattern = .ok format) :
    ∃ p, format = .date p := by
  rcases readPattern_cases h with ⟨-, rfl⟩ | ⟨-, p, -, -, rfl⟩ <;> exact ⟨_, rfl⟩

/-- A declaration fails as a configuration, but for a default that cannot be written. -/
theorem failsOnly_toField (d : FieldDecl) (dialect : Dialect) :
    FailsOnly (fun e => e.isConfig = true ∨
        ∃ p, d.UnwritableDefault p ∧ e = .conversion (.dateNotWritable d.name p.text))
      (d.toField dialect) := by
  unfold toField
  cases codec : d.type.codec? with
  | none => exact .error (.inl rfl)
  | some c =>
    refine .bind ((d.failsOnly_check c).imp fun _ => .inl) fun ⟨⟩ check => ?_
    refine .bind ((d.failsOnly_readFormat c).imp fun _ => .inl) fun formatting format => ?_
    dsimp only
    split
    · exact .ok _
    next text default =>
      refine .bind ?_ fun _ _ => .ok _
      by_cases hc : c = .dateString
      · subst hc
        obtain ⟨_, pattern, rfl⟩ := map_eq_ok.mp format
        obtain ⟨p, rfl⟩ := readPattern_eq_ok pattern
        refine (Codec.failsOnly_parseDefault_dateString (p := p) rfl text).mapError fun e he => ?_
        rcases he with unreadable | ⟨zone, ⟨t, read⟩, rfl⟩
        · exact .inl (isConfig_defaultFailure unreadable)
        · refine .inr ⟨p, ⟨?_, check, pattern, zone, text, t, default, read⟩, rfl⟩
          exact (Codec.codec?_eq_some_iff.mp codec).symm
      · exact (dialect.failsOnly_parseDefault hc _ text).mapError fun e he =>
          .inl (isConfig_defaultFailure he)

/-- A default that cannot be written makes the declaration fail as a conversion. -/
theorem toField_of_unwritableDefault (h : d.UnwritableDefault p) :
    d.toField dialect = .error (.conversion (.dateNotWritable d.name p.text)) := by
  obtain ⟨type, check, pattern, zone, text, t, default, read⟩ := h
  have format : d.readFormat .dateString = .ok (some (.date p)) := by
    rw [readFormat, pattern]
    rfl
  have unwritten : p.write? t = none := Calendar.Pattern.write?_eq_none_iff.mpr zone
  let f : Field := { d with
    converter := .plain .dateString, formatting := some (.date p), defaultValue := none }
  have parsed : f.parseTime text = .ok t := found_eq_ok.mpr read
  have written : f.timeText t = .error (.conversion (.dateNotWritable d.name p.text)) := by
    have hasPattern : f.datePattern = p := rfl
    rw [Field.timeText, hasPattern, unwritten]
  have stored : Codec.parseDefault .dateString f text =
      .error (.conversion (.dateNotWritable d.name p.text)) := by
    rw [Codec.parseDefault, parsed]
    show (f.timeText t >>= _) = _
    rw [written]
    rfl
  rw [toField, type]
  show (d.check .dateString >>= _) = _
  rw [check]
  show (d.readFormat .dateString >>= _) = _
  rw [format]
  rw [default]
  show ((Codec.parseDefault .dateString f text).mapError defaultFailure >>= _) = _
  rw [stored]
  rfl

/-- A declaration fails other than as a configuration exactly for a default that cannot be
written. -/
theorem toField_fault_iff {e : Failure} :
    (d.toField dialect = .error e ∧ e.isConfig = false) ↔
      ∃ p, d.UnwritableDefault p ∧ e = .conversion (.dateNotWritable d.name p.text) := by
  constructor
  · rintro ⟨failed, other⟩
    rcases d.failsOnly_toField dialect e failed with config | unwritable
    · rw [config] at other
      cases other
    · exact unwritable
  · rintro ⟨p, unwritable, rfl⟩
    exact ⟨toField_of_unwritableDefault unwritable, rfl⟩

end FieldDecl

/-! ### Tables -/

theorem Table.failsOnly_make (name : String) (fields : List Field) :
    FailsOnly (·.isConfig = true) (Table.make name fields) := by
  unfold make
  split
  · exact .ok _
  · exact .error rfl

/-- Whatever is wrong with a declaration is a failure of configuration, but for one thing: a date
kept as text has a default, and a format that reads it and cannot write it. The declaration of a
table fails like the first of its fields that fails. -/
theorem TableDecl.fault_outside_configuration_iff (dialect : Dialect) (e : Failure) :
    (∀ d : FieldDecl, (d.toField dialect = .error e ∧ e.isConfig = false) ↔
      ∃ p, d.UnwritableDefault p ∧ e = .conversion (.dateNotWritable d.name p.text)) ∧
    ∀ t : TableDecl, (t.toTable dialect = .error e ∧ e.isConfig = false) ↔
      ∃ before d after p, t.fields = before ++ d :: after ∧
        (∀ b ∈ before, ∃ f, b.toField dialect = .ok f) ∧
        d.UnwritableDefault p ∧ e = .conversion (.dateNotWritable d.name p.text) := by
  refine ⟨fun d => FieldDecl.toField_fault_iff, fun t => ?_⟩
  have fields : (t.toTable dialect = .error e ∧ e.isConfig = false) ↔
      (t.fields.mapM (·.toField dialect) = .error e ∧ e.isConfig = false) := by
    rw [toTable, bind_eq_error]
    constructor
    · rintro ⟨failed | ⟨fs, -, failed⟩, other⟩
      · exact ⟨failed, other⟩
      · rw [Table.failsOnly_make _ _ _ failed] at other
        cases other
    · rintro ⟨failed, other⟩
      exact ⟨.inl failed, other⟩
  rw [fields, mapM_eq_error]
  constructor
  · rintro ⟨⟨before, d, after, split, built, failed⟩, other⟩
    obtain ⟨p, unwritable, said⟩ := FieldDecl.toField_fault_iff.mp ⟨failed, other⟩
    exact ⟨before, d, after, p, split, built, unwritable, said⟩
  · rintro ⟨before, d, after, p, split, built, unwritable, said⟩
    obtain ⟨failed, other⟩ := FieldDecl.toField_fault_iff.mpr ⟨p, unwritable, said⟩
    exact ⟨⟨before, d, after, split, built, failed⟩, other⟩

/-- A format with the offset of a time zone reads a default and cannot write it. -/
theorem FieldDecl.zoned_default_not_configuration :
    FieldDecl.toField
        { name := "at", type := .dateString, format := some "%Y-%m-%d %z",
          defaultText := some "2024-01-01 +0000" } .sqlite =
      .error (.conversion (.dateNotWritable "at" "%Y-%m-%d %z")) :=
  cause?_eq_some.mp (by decide +kernel)

end Relmap
