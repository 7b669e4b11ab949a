import Relmap.Proofs.Field.Bindable

/-!
# Null is kept

A field reads its column through the typed getters of a cursor and through nothing else
(`Field.ofColumn_eq_fetch`), so that what is proved of fetching holds of every cursor, whatever its
getters give for a null column. No codec and no layer makes null of a value that is not null
(`Converter.toStored_nonnull`, `Converter.ofStored_nonnull`): null comes out of a field only where
null went in, and it goes in only where the field allows it.

The main statement is `Field.null_kept`.
-/

namespace Relmap

open Number (Double Scaled Single Word)
open Calendar (Timestamp)
open Outcome

/-! ### Cursors -/

/-- A row as converters see it: whether a column is null, and the column as each of the types. -/
structure Cursor where
  isNull : Nat → Except Failure Bool
  getString : Nat → Except Failure String
  getBoolean : Nat → Except Failure Bool
  getChar : Nat → Except Failure Char
  getByte : Nat → Except Failure (Word 8)
  getShort : Nat → Except Failure (Word 16)
  getInt : Nat → Except Failure (Word 32)
  getLong : Nat → Except Failure (Word 64)
  getFloat : Nat → Except Failure Single
  getDouble : Nat → Except Failure Double
  getBytes : Nat → Except Failure (List UInt8)
  getTimestamp : Nat → Except Failure Timestamp
  getDecimal : Nat → Except Failure Scaled
  getUuid : Nat → Except Failure Uuid

namespace Cursor

/-- A column read as a value of a kind. -/
def get (x : Cursor) (position : Nat) : Wire → Except Failure Value
  | .text => .text <$> x.getString position
  | .bytes => .bytes <$> x.getBytes position
  | .char => .char <$> x.getChar position
  | .bool => .bool <$> x.getBoolean position
  | .word .byte => .byte <$> x.getByte position
  | .word .short => .short <$> x.getShort position
  | .word .int => .int <$> x.getInt position
  | .word .long => .long <$> x.getLong position
  | .single => .float <$> x.getFloat position
  | .double => .double <$> x.getDouble position
  | .timestamp => .timestamp <$> x.getTimestamp position
  | .uuid => .uuid <$> x.getUuid position
  | .decimal => .decimal <$> x.getDecimal position

end Cursor

namespace Results

/-- Rows in memory as a cursor. -/
def toCursor (r : Results) : Cursor where
  isNull := r.isNull
  getString := r.getString
  getBoolean := r.getBoolean
  getChar := r.getChar
  getByte := r.getByte
  getShort := r.getShort
  getInt := r.getInt
  getLong := r.getLong
  getFloat := r.getFloat
  getDouble := r.getDouble
  getBytes := r.getBytes
  getTimestamp := r.getTimestamp
  getDecimal := r.getDecimal
  getUuid := r.getUuid

theorem get_toCursor (r : Results) (position : Nat) (k : Wire) :
    r.toCursor.get position k = k.read r position := by
  cases k with
  | word w => cases w <;> rfl
  | _ => rfl

end Results

/-! ### Fetching from a cursor -/

namespace Converter

/-- The stored value of a column of a cursor, through the layers around a codec. -/
def fetchStoredThrough (c : Codec) (x : Cursor) (position : Nat) :
    List Adapter → Except Failure Value
  | [] => x.get position c.wire
  | .booleanNumber :: _ => x.get position (.word .byte)
  | .characterCompat :: inner => charAsText <$> fetchStoredThrough c x position inner
  | .forwarding _ :: inner | .retyped _ _ :: inner => fetchStoredThrough c x position inner

/-- The value of a column of a cursor; a null column is null. -/
def fetch (c : Converter) (f : Field) (x : Cursor) (position : Nat) : Except Failure Value := do
  if ← x.isNull position then return .null
  c.ofStored f (← fetchStoredThrough c.codec x position c.layers) position

theorem readStored_eq_fetchStored (c : Converter) (r : Results) (position : Nat) :
    c.readStored r position = fetchStoredThrough c.codec r.toCursor position c.layers := by
  obtain ⟨codec, layers⟩ := c
  show readStoredThrough codec r position layers = _
  induction layers with
  | nil => rw [readStoredThrough, fetchStoredThrough, codec.readStored_eq_read, r.get_toCursor]
  | cons a inner ih =>
    cases a with
    | booleanNumber => rfl
    | characterCompat => exact congrArg (charAsText <$> ·) ih
    | forwarding _ | retyped _ _ => exact ih

/-- Rows in memory are read as any cursor is. -/
theorem ofColumn_eq_fetch (c : Converter) (f : Field) (r : Results) (position : Nat) :
    c.ofColumn f r position = c.fetch f r.toCursor position := by
  rw [ofColumn, readStored_eq_fetchStored]
  rfl

end Converter

namespace Field

/-- The value of a column of a cursor. Null is a failure for a field of a primitive type that asks
for it. -/
def fetch (f : Field) (x : Cursor) (position : Nat) : Except Failure Value := do
  let v ← f.converter.fetch f x position
  if v.isNull && f.throwIfNull && f.converter.codec.isPrimitive then
    throw (.conversion (.nullColumn f.name f.column))
  return v

/-- **A field reads rows in memory as it reads any cursor.** -/
theorem ofColumn_eq_fetch (f : Field) (r : Results) (position : Nat) :
    f.ofColumn r position = f.fetch r.toCursor position := by
  rw [ofColumn, Converter.ofColumn_eq_fetch]
  rfl

end Field

/-! ### Nothing becomes null -/

namespace Field

variable {f : Field} {u v : Value}

theorem ofMillis_nonnull {n : Int} (h : f.ofMillis n = .ok v) : v.isNull = false := by
  unfold ofMillis at h
  split at h
  · cases h
    rfl
  · cases h

theorem ofSeconds_nonnull {n : Int} (h : f.ofSeconds n = .ok v) : v.isNull = false := by
  unfold ofSeconds at h
  split at h
  · cases h
    rfl
  · cases h

theorem ofOctets_nonnull {b : List UInt8} (h : f.ofOctets b = .ok v) : v.isNull = false := by
  unfold ofOctets at h
  split at h
  · cases h
    rfl
  · cases h

/-- The null of a data tree is a data tree. -/
theorem ofSerialized_nonnull {position : Nat} {b : List UInt8}
    (h : f.ofSerialized position b = .ok v) : v.isNull = false := by
  unfold ofSerialized at h
  split at h
  · cases h
    rfl
  · cases h

theorem resolve_nonnull {e : Enumeration} {found : Option EnumConstant} {stored : String}
    (h : f.resolve e found stored = .ok v) : v.isNull = false := by
  unfold resolve at h
  split at h
  · cases h
    rfl
  · cases h

theorem ofUuidOrText_nonnull (h : f.ofUuidOrText u = .ok v) : v.isNull = false := by
  unfold ofUuidOrText at h
  split at h
  · cases h
    rfl
  · obtain ⟨_, -, rfl⟩ := map_eq_ok.mp h
    rfl
  · cases h

theorem ofCharOrText_nonnull (h : f.ofCharOrText u = .ok v) : v.isNull = false := by
  unfold ofCharOrText at h
  split at h
  · cases h
    rfl
  · obtain ⟨_, -, rfl⟩ := map_eq_ok.mp h
    rfl
  · cases h

theorem ofBoolOrByte_nonnull (h : f.ofBoolOrByte u = .ok v) : v.isNull = false := by
  unfold ofBoolOrByte at h
  split at h
  · cases h
    rfl
  · obtain ⟨_, -, rfl⟩ := map_eq_ok.mp h
    rfl

end Field

/-- What a codec makes of a stored value is not null. -/
theorem Codec.ofStored_nonnull {c : Codec} {f : Field} {u v : Value} {position : Nat}
    (h : c.ofStored f u position = .ok v) : v.isNull = false := by
  cases c with
  | integral w _ =>
    obtain ⟨n, -, rfl⟩ := map_eq_ok.mp h
    exact (Wire.Carries.word w n).nonnull
  | stringBytes =>
    obtain ⟨_, -, h⟩ := bind_eq_ok.mp h
    exact Field.ofOctets_nonnull h
  | dateLong =>
    obtain ⟨_, -, h⟩ := bind_eq_ok.mp h
    exact Field.ofMillis_nonnull h
  | dateInteger =>
    obtain ⟨_, -, h⟩ := bind_eq_ok.mp h
    exact Field.ofSeconds_nonnull h
  | serializable =>
    obtain ⟨_, -, h⟩ := bind_eq_ok.mp h
    exact Field.ofSerialized_nonnull h
  | enumString | enumInteger =>
    obtain ⟨_, -, h⟩ := bind_eq_ok.mp h
    obtain ⟨_, -, h⟩ := bind_eq_ok.mp h
    exact Field.resolve_nonnull h
  | uuidNative => exact Field.ofUuidOrText_nonnull h
  | booleanChar => exact Field.ofCharOrText_nonnull h
  | dateString | uuid | bigInteger | bigDecimal =>
    obtain ⟨_, -, h⟩ := bind_eq_ok.mp h
    obtain ⟨_, -, h⟩ := bind_eq_ok.mp h
    rw [← pure_eq_ok.mp h]
    rfl
  | _ =>
    obtain ⟨_, -, rfl⟩ := map_eq_ok.mp h
    rfl

namespace Converter

variable {c : Converter} {f : Field} {u v : Value}

/-- **No layer makes null of a stored value.** -/
theorem ofStored_nonnull {position : Nat} (h : c.ofStored f u position = .ok v) :
    v.isNull = false := by
  obtain ⟨codec, layers⟩ := c
  change ofStoredThrough codec f u position layers = .ok v at h
  induction layers generalizing u with
  | nil => exact Codec.ofStored_nonnull h
  | cons a inner ih =>
    cases a with
    | booleanNumber => exact Field.ofBoolOrByte_nonnull h
    | characterCompat =>
      unfold ofStoredThrough at h
      split at h
      · obtain ⟨_, -, h⟩ := bind_eq_ok.mp h
        exact ih h
      · exact ih h
    | forwarding _ | retyped _ _ => exact ih h

/-- **No converter stores null** in place of a value. -/
theorem toStored_nonnull (h : c.toStored f v = .ok u) : u.isNull = false :=
  (toStored_carries h).nonnull

theorem fetch_of_null {x : Cursor} {position : Nat} (empty : x.isNull position = .ok true) :
    c.fetch f x position = .ok .null := by
  rw [fetch, empty]
  rfl

/-- A column that is not null is not fetched as null. -/
theorem fetch_nonnull {x : Cursor} {position : Nat} (filled : x.isNull position = .ok false)
    (h : c.fetch f x position = .ok v) : v.isNull = false := by
  rw [fetch, filled] at h
  change (fetchStoredThrough c.codec x position c.layers >>= fun u => c.ofStored f u position) = _
    at h
  obtain ⟨u, -, h⟩ := bind_eq_ok.mp h
  exact ofStored_nonnull h

end Converter

/-! ### Fields -/

theorem Dialect.codec_converter (dialect : Dialect) (c : Codec) :
    (dialect.converter c).codec = c := by
  obtain plain | ⟨_, rfl, layered⟩ | ⟨_, rfl, layered⟩ := dialect.converter_cases c
  · rw [plain]
    rfl
  · rw [layered]
  · rw [layered]

/-- Only a field of a primitive type asks for a failure in place of null. -/
theorem FieldDecl.Built.isPrimitive {d : FieldDecl} {dialect : Dialect} {c : Codec} {f : Field}
    (built : d.Built dialect c f) (strict : f.throwIfNull = true) :
    f.converter.codec.isPrimitive = true := by
  -- The check for this stands sixth.
  obtain ⟨⟨⟩, -, h⟩ := bind_eq_ok.mp built.check
  obtain ⟨⟨⟩, -, h⟩ := bind_eq_ok.mp h
  obtain ⟨⟨⟩, -, h⟩ := bind_eq_ok.mp h
  obtain ⟨⟨⟩, -, h⟩ := bind_eq_ok.mp h
  obtain ⟨⟨⟩, -, h⟩ := bind_eq_ok.mp h
  obtain ⟨⟨⟩, allowed, -⟩ := bind_eq_ok.mp h
  have boxed := refuseIf_eq_ok.mp allowed
  rw [← built.decl, strict, Bool.true_and, Bool.not_eq_false'] at boxed
  rw [built.converter, dialect.codec_converter]
  exact boxed

namespace Field

variable {f : Field} {x : Cursor} {position : Nat} {v : Value}

theorem fetch_eq_ok :
    f.fetch x position = .ok v ↔ f.converter.fetch f x position = .ok v ∧
      (v.isNull && f.throwIfNull && f.converter.codec.isPrimitive) = false := by
  rw [fetch, bind_eq_ok]
  constructor
  · rintro ⟨w, fetched, h⟩
    split at h
    · cases h
    · obtain rfl : w = v := pure_eq_ok.mp h
      exact ⟨fetched, Bool.eq_false_iff.mpr ‹_›⟩
  · rintro ⟨fetched, allowed⟩
    exact ⟨v, fetched, by rw [if_neg (by rw [allowed]; decide)]; rfl⟩

theorem fetch_of_null (strict : f.throwIfNull = true)
    (primitive : f.converter.codec.isPrimitive = true) (empty : x.isNull position = .ok true) :
    f.fetch x position = .error (.conversion (.nullColumn f.name f.column)) := by
  have refused : (Value.null.isNull && f.throwIfNull && f.converter.codec.isPrimitive) = true := by
    rw [strict, primitive]
    rfl
  rw [fetch, Converter.fetch_of_null empty]
  exact if_pos refused

theorem fetch_eq_null_iff {null : Bool} (primitive : f.throwIfNull = true →
    f.converter.codec.isPrimitive = true) (asked : x.isNull position = .ok null) :
    f.fetch x position = .ok .null ↔ null = true ∧ f.throwIfNull = false := by
  rw [fetch_eq_ok]
  constructor
  · rintro ⟨fetched, allowed⟩
    constructor
    · cases null with
      | true => rfl
      | false => cases Converter.fetch_nonnull asked fetched
    · by_contra strict
      rw [Bool.not_eq_false] at strict
      rw [strict, primitive strict] at allowed
      cases allowed
  · rintro ⟨rfl, lenient⟩
    refine ⟨Converter.fetch_of_null asked, ?_⟩
    rw [lenient]
    rfl

theorem toStored_eq_null_iff : f.toStored v = .ok .null ↔ v = .null ∧ f.nullable = true := by
  rw [toStored]
  constructor
  · intro h
    split at h
    next null =>
      split at h
      next nullable => exact ⟨Value.isNull_iff.mp null, nullable⟩
      · cases h
    · cases Converter.toStored_nonnull h
  · rintro ⟨rfl, nullable⟩
    exact if_pos nullable

theorem ofStored_eq_null_iff : f.ofStored v position = .ok .null ↔ v = .null := by
  rw [ofStored]
  constructor
  · intro h
    split at h
    next null => exact Value.isNull_iff.mp null
    · cases Converter.ofStored_nonnull h
  · rintro rfl
    rfl

/-- **Null is kept**, neither made nor lost. Whatever the cursor, a field gives null for a column
just if the column is null and the field does not ask for a failure, and then it fails on such a
column. It stores null just for null where it may be null, and fails on it otherwise. It makes null
of a stored value just if that is null. -/
theorem null_kept {d : FieldDecl} {dialect : Dialect} (h : d.toField dialect = .ok f) :
    (∀ (x : Cursor) (position : Nat) (null : Bool), x.isNull position = .ok null →
      (f.fetch x position = .ok .null ↔ null = true ∧ f.throwIfNull = false) ∧
      (null = true → f.throwIfNull = true →
        f.fetch x position = .error (.conversion (.nullColumn f.name f.column)))) ∧
    (∀ (x : Cursor) (position : Nat), f.throwIfNull = true → f.fetch x position ≠ .ok .null) ∧
    (∀ (r : Results) (position : Nat), f.ofColumn r position = f.fetch r.toCursor position) ∧
    (∀ v, (f.toStored v = .ok .null ↔ v = .null ∧ f.nullable = true) ∧
      (v = .null → f.nullable = false →
        f.toStored v = .error (.conversion (.nullValue f.name)))) ∧
    ∀ u position, f.ofStored u position = .ok .null ↔ u = .null := by
  obtain ⟨c, built⟩ := FieldDecl.built_of_toField h
  have primitive : f.throwIfNull = true → f.converter.codec.isPrimitive = true := built.isPrimitive
  refine ⟨fun x position null asked => ⟨fetch_eq_null_iff primitive asked, ?_⟩, ?_,
    f.ofColumn_eq_fetch, fun v => ⟨toStored_eq_null_iff, ?_⟩, fun _ _ => ofStored_eq_null_iff⟩
  · rintro rfl strict
    exact fetch_of_null strict (primitive strict) asked
  · intro x position strict fetched
    have allowed := (fetch_eq_ok.mp fetched).2
    rw [strict, primitive strict] at allowed
    cases allowed
  · rintro rfl strict
    rw [toStored, if_pos (by rfl), strict]
    rfl

/-- A character that must not be missing: its column may not be null, what is stored may. -/
theorem strict_character_fails_on_null : ∃ f,
    FieldDecl.toField { name := "initial", type := .char, throwIfNull := true } .derby = .ok f ∧
      f.ofColumn (Results.ofRow [("initial", .null)]) 0 =
        .error (.conversion (.nullColumn "initial" "initial")) ∧
      f.ofColumn (Results.ofRow [("initial", .text "x")]) 0 ≠ .ok .null ∧
      f.toStored .null = .ok .null ∧ f.ofStored .null 0 = .ok .null := by
  obtain ⟨f, built, name, column, strict, nullable⟩ : ∃ f,
      FieldDecl.toField { name := "initial", type := .char, throwIfNull := true } .derby = .ok f ∧
        f.name = "initial" ∧ f.column = "initial" ∧ f.throwIfNull = true ∧ f.nullable = true :=
    ⟨_, rfl, rfl, rfl, rfl, rfl⟩
  obtain ⟨fetched, never, memory, stored, back⟩ := null_kept built
  refine ⟨f, built, ?_, ?_, (stored .null).1.mpr ⟨rfl, nullable⟩, (back .null 0).mpr rfl⟩
  · rw [memory, (fetched _ 0 true rfl).2 rfl strict, name, column]
  · rw [memory]
    exact never _ 0 strict

end Field

end Relmap
