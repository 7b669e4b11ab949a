import Relmap.Proofs.Field.Column
import Relmap.Proofs.Field.RoundTrip
import Relmap.Storage

/-!
# What is bound to SQLite is read back

A value goes through three steps to the database and back: its converter makes a stored value of it,
the stored value is folded into one of five storage classes, and the column that comes back is read
by the typed read of the converter. The storage loses the kind of a value, and the typed read finds
it again (`Wire.read_bind`), so that a field reads from its column what was bound for it
(`Field.ofColumn_bind`). Single precision is left out: it is stored in double precision.
-/

namespace Relmap

open Number (Scaled Word)
open Outcome (bind_eq_ok map_eq_ok)

/-- The timestamp in a value, if there is one, is read from its text again. -/
def Value.TimestampLegible (v : Value) : Prop :=
  ∀ t, v = .timestamp t → Calendar.readTimestamp? Calendar.standardItems t.text.toList = some t

/-! ### Storage classes -/

namespace Stored

/-- A text is read from storage as it was bound. -/
theorem read_ofString (s : String) : (ofString s).read = .ok (.text s) := by
  rw [ofString, read, Text.Utf8.decode_encode]
  simp only [String.ofList_toList]

/-- A word of any width is stored as a long one of the same number. -/
theorem bind_word (width : Width) (n : Word width.bits) :
    bind (width.value n) = .integer (BitVec.ofInt 64 n.toInt) := by
  cases width with
  | long => exact congrArg Stored.integer BitVec.ofInt_toInt.symm
  | _ => rfl

end Stored

/-- A stored value of a kind is found again by the typed read of that kind, in the value that
storage gives back. -/
theorem Wire.read_bind {k : Wire} {w : Value} (hk : k ≠ .single) (h : k.Carries w)
    (decimal : w.DecimalLegible) (timestamp : w.TimestampLegible) :
    ∃ x, (Stored.bind w).read = .ok x ∧ x.isNull = false ∧
      ∀ r p, Results.get r p = .ok x → k.read r p = .ok w := by
  cases h with
  | text s =>
    exact ⟨.text s, Stored.read_ofString s, rfl, fun r p hget => read_self hk (.text s) hget⟩
  | bytes b => exact ⟨.bytes b, rfl, rfl, fun r p hget => read_self hk (.bytes b) hget⟩
  | double x => exact ⟨.double x, rfl, rfl, fun r p hget => read_self hk (.double x) hget⟩
  | single x => exact absurd rfl hk
  | char c =>
    refine ⟨.text (String.ofList [c]), Stored.read_ofString _, rfl, fun r p hget => ?_⟩
    have first : (Value.text (String.ofList [c])).toChar? = some c := by
      simp [Value.toChar?]
    exact map_eq_ok.mpr ⟨c, (Results.read_eq_ok hget).mpr first, rfl⟩
  | bool b =>
    cases b with
    | false =>
      exact ⟨.long 0, rfl, rfl, fun r p hget =>
        map_eq_ok.mpr ⟨false, (Results.read_eq_ok hget).mpr rfl, rfl⟩⟩
    | true =>
      exact ⟨.long 1, rfl, rfl, fun r p hget =>
        map_eq_ok.mpr ⟨true, (Results.read_eq_ok hget).mpr rfl, rfl⟩⟩
  | word width n =>
    have number : (Value.long (BitVec.ofInt 64 n.toInt)).integer? = some n.toInt :=
      congrArg some (Results.toLong?_of_integer? (width.integer?_value n)).2
    refine ⟨.long (BitVec.ofInt 64 n.toInt), by rw [Stored.bind_word]; rfl, rfl,
      fun r p hget => ?_⟩
    rw [read_word hget number (Number.fits_toInt n), BitVec.ofInt_toInt]
  | timestamp t =>
    refine ⟨.text t.text, Stored.read_ofString _, rfl, fun r p hget => ?_⟩
    have found : (Value.text t.text).toTimestamp? = some t := by
      rw [Value.toTimestamp?, Value.trimmed, t.trim_text]
      exact timestamp t rfl
    exact map_eq_ok.mpr ⟨t, (Results.read_eq_ok hget).mpr found, rfl⟩
  | uuid u =>
    refine ⟨.text u.text, Stored.read_ofString _, rfl, fun r p hget => ?_⟩
    have found : (Value.text u.text).toUuid? = some u := by
      rw [Value.toUuid?, Value.trimmed, u.trim_text, u.read?_text]
    exact map_eq_ok.mpr ⟨u, (Results.read_eq_ok hget).mpr found, rfl⟩
  | decimal d =>
    refine ⟨.text d.text, Stored.read_ofString _, rfl, fun r p hget => ?_⟩
    have found : (Value.text d.text).toDecimal? = some d := by
      rw [Value.toDecimal?, Value.trimmed, d.trim_text]
      exact decimal d rfl
    exact map_eq_ok.mpr ⟨d, (Results.read_eq_ok hget).mpr found, rfl⟩

/-! ### Fields -/

variable {d : FieldDecl} {dialect : Dialect} {c : Codec} {f : Field} {v w : Value}

theorem Wire.eq_timestamp {k : Wire} {t : Calendar.Timestamp} (h : k.Carries (.timestamp t)) :
    k = .timestamp := by
  cases k with
  | timestamp => rfl
  | word width => cases width <;> cases h
  | _ => cases h

theorem Wire.eq_decimal {k : Wire} {x : Scaled} (h : k.Carries (.decimal x)) : k = .decimal := by
  cases k with
  | decimal => rfl
  | word width => cases width <;> cases h
  | _ => cases h

/-- Timestamps and decimals are stored as they are, where they are stored as such. -/
theorem Codec.eq_of_toStored (hc : c.wire = .timestamp ∨ c.wire = .decimal)
    (h : c.toStored f v = .ok w) : v = w := by
  cases c with
  | date =>
    obtain ⟨t, given, rfl⟩ := map_eq_ok.mp h
    exact Value.timestamp?_eq_some.mp (Field.expect_eq_ok.mp given)
  | bigDecimalNumeric =>
    obtain ⟨x, given, rfl⟩ := map_eq_ok.mp h
    exact Value.decimal?_eq_some.mp (Field.expect_eq_ok.mp given)
  | _ => exact (hc.elim (fun h => (nomatch h)) fun h => (nomatch h))

theorem Codec.legible_toStored (h : c.toStored f v = .ok w) (decimal : v.DecimalLegible)
    (timestamp : v.TimestampLegible) : w.DecimalLegible ∧ w.TimestampLegible := by
  have carried := toStored_carries h
  constructor
  · rintro x rfl
    exact decimal x (eq_of_toStored (.inr (Wire.eq_decimal carried)) h)
  · rintro t rfl
    exact timestamp t (eq_of_toStored (.inl (Wire.eq_timestamp carried)) h)

/-- What a converter stores is found again in the column that storage gives back. -/
theorem Converter.readStored_bind (hc : c.wire ≠ .single)
    (stored : (dialect.converter c).toStored f v = .ok w) (decimal : v.DecimalLegible)
    (timestamp : v.TimestampLegible) :
    ∃ x, (Stored.bind w).read = .ok x ∧ x.isNull = false ∧
      ∀ r p, Results.get r p = .ok x → (dialect.converter c).readStored r p = .ok w := by
  obtain plain | ⟨_, rfl, layered⟩ | ⟨_, rfl, layered⟩ := dialect.converter_cases c
  · rw [plain] at stored ⊢
    have carried := Codec.toStored_carries stored
    obtain ⟨decimal, timestamp⟩ := Codec.legible_toStored stored decimal timestamp
    obtain ⟨x, bound, nonnull, read⟩ := Wire.read_bind hc carried decimal timestamp
    refine ⟨x, bound, nonnull, fun r p hget => ?_⟩
    exact (Codec.readStored_eq_read c r p).trans (read r p hget)
  · rw [layered] at stored ⊢
    obtain ⟨b, -, rfl⟩ := map_eq_ok.mp stored
    exact Wire.read_bind (by decide) (.word .byte (if b then 1 else 0)) (fun _ h => (nomatch h))
      fun _ h => (nomatch h)
  · rw [layered] at stored ⊢
    obtain ⟨_, inner, rfl⟩ := map_eq_ok.mp stored
    obtain ⟨k, -, rfl⟩ := map_eq_ok.mp inner
    obtain ⟨x, bound, nonnull, read⟩ := Wire.read_bind (by decide) (.char k)
      (fun _ h => (nomatch h)) fun _ h => (nomatch h)
    exact ⟨x, bound, nonnull, fun r p hget => map_eq_ok.mpr ⟨_, read r p hget, rfl⟩⟩

/-- A null that a field takes is read as null from the null that is stored for it. -/
theorem Field.ofColumn_bind_null (nullable : f.nullable = true) (lenient : f.throwIfNull = false)
    (name : String) : f.toStored .null = .ok .null ∧ (Stored.bind .null).read = .ok .null ∧
      f.ofColumn (Results.ofRow [(name, .null)]) 0 = .ok .null := by
  refine ⟨?_, rfl, Field.ofColumn_eq_ok.mpr ⟨rfl, ?_⟩⟩
  · simp [toStored, Value.isNull, nullable]
  · simp [lenient]

/-- What a field binds to SQLite is read back from its column: a value in the own shape of its type,
or null where the field takes it and does not refuse to read it. -/
theorem Field.ofColumn_bind {d : FieldDecl} {f : Field} {v : Value}
    (built : d.toField .sqlite = .ok f) (distinct : d.type.isEnum = true → d.enumConstants.Nodup)
    (type : d.type ≠ .float ∧ d.type ≠ .floatObj)
    (shape : d.Holds v ∨ v = .null ∧ d.nullable = true ∧ d.throwIfNull = false)
    (decimal : v.DecimalLegible) (timestamp : v.TimestampLegible) (name : String) :
    ∃ w x, f.toStored v = .ok w ∧ (Stored.bind w).read = .ok x ∧
      f.ofColumn (Results.ofRow [(name, x)]) 0 = .ok v := by
  rcases shape with holds | ⟨rfl, nullable, lenient⟩
  · obtain ⟨nonnull, w, kept⟩ := FieldDecl.exists_keeps built distinct holds decimal
    obtain ⟨c, built⟩ := FieldDecl.built_of_toField built
    have wire := Codec.wire_ne_single built.codec type
    have stored := kept.stores
    rw [built.converter] at stored
    obtain ⟨x, bound, filled, read⟩ := Converter.readStored_bind wire stored decimal timestamp
    refine ⟨w, x, ?_, bound, ?_⟩
    · rw [toStored_of_nonnull nonnull]
      exact kept.stores
    · have column : f.converter.readStored (Results.ofRow [(name, x)]) 0 = .ok w := by
        rw [built.converter]
        exact read _ 0 rfl
      refine Field.ofColumn_eq_ok.mpr ⟨?_, by rw [nonnull]; rfl⟩
      exact (Converter.ofColumn_eq_ok rfl filled).mpr ⟨w, column, kept.gives 0⟩
  · obtain ⟨c, built⟩ := FieldDecl.built_of_toField built
    rw [← built.decl] at nullable lenient
    exact ⟨.null, .null, Field.ofColumn_bind_null nullable lenient name⟩

/-- A moment with a fraction of a second is read back, and so is a date that is missing. -/
theorem Field.moment_and_null_read_back : ∃ f t,
    FieldDecl.toField { name := "at", type := .date } .sqlite = .ok f ∧
      t.text = "2024-02-29 12:30:45.500" ∧
      (∃ w x, f.toStored (.timestamp t) = .ok w ∧ (Stored.bind w).read = .ok x ∧
        f.ofColumn (Results.ofRow [("at", x)]) 0 = .ok (.timestamp t)) ∧
      ∃ w x, f.toStored .null = .ok w ∧ (Stored.bind w).read = .ok x ∧
        f.ofColumn (Results.ofRow [("at", x)]) 0 = .ok .null := by
  let t : Calendar.Timestamp :=
    ⟨1709209845, 500000000, by decide, by decide, by decide, by decide⟩
  have text : t.text.toList = "2024-02-29 12:30:45.500".toList := by
    rw [Calendar.Timestamp.text, String.toList_ofList]
    decide
  have legible : Calendar.readTimestamp? Calendar.standardItems t.text.toList = some t := by
    rw [Calendar.Timestamp.text, String.toList_ofList]
    decide
  obtain ⟨f, built⟩ : ∃ f, FieldDecl.toField { name := "at", type := .date } .sqlite = .ok f :=
    ⟨_, rfl⟩
  have plain : DataType.isEnum .date = true → ([] : List String).Nodup := fun _ => List.nodup_nil
  refine ⟨f, t, built, String.toList_inj.mp text, ?_, ?_⟩
  · have decimal : (Value.timestamp t).DecimalLegible := by
      rintro _ ⟨⟩
    have timestamp : (Value.timestamp t).TimestampLegible := by
      rintro _ ⟨⟩
      exact legible
    exact Field.ofColumn_bind built plain (by decide) (.inl ⟨_, rfl, .date t⟩) decimal
      timestamp "at"
  · have decimal : Value.null.DecimalLegible := by
      rintro _ ⟨⟩
    have timestamp : Value.null.TimestampLegible := by
      rintro _ ⟨⟩
    exact Field.ofColumn_bind built plain (by decide) (.inr ⟨rfl, rfl, rfl⟩) decimal
      timestamp "at"

end Relmap
