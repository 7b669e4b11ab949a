import Relmap.Proofs.Field.Declare
import Relmap.Proofs.Field.Wire

/-!
# The column and the value in it

A value can be converted directly, or be read from a column by the typed read of the converter and
then converted. The typed read widens, narrows and takes texts apart, the direct way checks; where
both succeed they give the same value (`Field.ofColumn_eq_ofStored`). What is compared for each codec is
only what the direct way accepts: the typed read makes of it a value that converts to the same.
-/

namespace Relmap

open Number (Fits Scaled Word readWord? toWord?)
open Outcome (bind_eq_ok map_eq_ok pure_eq_ok)

variable {f : Field} {r : Results} {p q : Nat} {u w a b : Value}

/-! ### Reading a column that is not null -/

theorem Converter.ofColumn_eq_ok {c : Converter} (hget : r.get p = .ok u)
    (hu : u.isNull = false) :
    c.ofColumn f r p = .ok a ↔ ∃ w, c.readStored r p = .ok w ∧ c.ofStored f w p = .ok a := by
  have filled : r.isNull p = .ok false := by
    rw [Results.isNull_of_get hget, hu]
  rw [ofColumn, filled]
  change (c.readStored r p >>= fun w => c.ofStored f w p) = .ok a ↔ _
  exact bind_eq_ok

theorem Field.ofColumn_eq_ok :
    f.ofColumn r p = .ok a ↔ f.converter.ofColumn f r p = .ok a ∧
      (a.isNull && f.throwIfNull && f.converter.codec.isPrimitive) = false := by
  rw [ofColumn, bind_eq_ok]
  constructor
  · rintro ⟨v, read, h⟩
    split at h
    · cases h
    · obtain rfl : v = a := pure_eq_ok.mp h
      exact ⟨read, Bool.eq_false_iff.mpr ‹_›⟩
  · rintro ⟨read, allowed⟩
    exact ⟨a, read, by rw [if_neg (by rw [allowed]; decide)]; rfl⟩

/-! ### What the direct way accepts -/

namespace Value

theorem text?_eq_some {s : String} : u.text? = some s ↔ u = .text s := by
  cases u <;> simp [text?]

theorem bytes?_eq_some {s : List UInt8} : u.bytes? = some s ↔ u = .bytes s := by
  cases u <;> simp [bytes?]

theorem char?_eq_some {c : Char} : u.char? = some c ↔ u = .char c := by
  cases u <;> simp [char?]

theorem bool?_eq_some {x : Bool} : u.bool? = some x ↔ u = .bool x := by
  cases u <;> simp [bool?]

theorem timestamp?_eq_some {t : Calendar.Timestamp} :
    u.timestamp? = some t ↔ u = .timestamp t := by
  cases u <;> simp [timestamp?]

theorem decimal?_eq_some {d : Scaled} : u.decimal? = some d ↔ u = .decimal d := by
  cases u <;> simp [decimal?]

theorem json?_eq_some {j : Json} : u.json? = some j ↔ u = .json j := by
  cases u <;> simp [json?]

theorem enum?_eq_some {k : EnumConstant} : u.enum? = some k ↔ u = .enum k := by
  cases u <;> simp [enum?]

theorem toDouble?_of_double? {x : Number.Double} (h : u.double? = some x) :
    u.toDouble? = some x := by
  cases u with
  | null | text => cases h
  | _ => exact h

end Value

namespace Field

variable {α : Type} {x : α} {expected : String}

theorem expect_eq_ok {pick? : Value → Option α} :
    f.expect expected pick? u = .ok x ↔ pick? u = some x := Outcome.found_eq_ok

theorem parse_eq_ok {read? : List Char → Option α} {s : String} :
    f.parse expected read? s = .ok x ↔ read? (Text.trim s.toList) = some x := Outcome.found_eq_ok

theorem parseChar_eq_ok {s : String} {c : Char} : f.parseChar s = .ok c ↔ s.toList = [c] := by
  unfold parseChar
  split
  · next d hd => rw [hd]; exact pure_eq_ok.trans (List.singleton_inj).symm
  · next other => exact ⟨fun h => (nomatch h), fun h => (other c h).elim⟩

theorem expectWord_eq_ok {width : Width} {m : Word width.bits} :
    f.expectWord width u = .ok m ↔ ∃ n, u.integer? = some n ∧ toWord? width.bits n = some m := by
  unfold expectWord
  cases u.integer? with
  | none => exact ⟨fun h => (nomatch h), fun ⟨_, h, _⟩ => (nomatch h)⟩
  | some n =>
    simp only [Option.some.injEq, exists_eq_left']
    cases toWord? width.bits n with
    | none => exact ⟨fun h => (nomatch h), fun h => (nomatch h)⟩
    | some k => exact pure_eq_ok.trans Option.some_inj.symm

end Field

theorem Number.toWord?_eq_some {bits : Nat} {n : Int} {m : Word bits} :
    toWord? bits n = some m ↔ Fits bits n ∧ BitVec.ofInt bits n = m := by
  simp [toWord?]

theorem Number.toInt_of_toWord? {bits : Nat} {n : Int} {m : Word bits} (hb : 0 < bits)
    (h : toWord? bits n = some m) : m.toInt = n := by
  obtain ⟨fits, rfl⟩ := Number.toWord?_eq_some.mp h
  exact BitVec.toInt_ofInt_eq_self hb fits.1 fits.2

/-! ### Codecs -/

namespace Codec

variable {c : Codec}

/-- A value of the kind that is stored is read from the column as it stands. -/
theorem ofStored_of_carries (hc : c.wire ≠ .single) (carried : c.wire.Carries u)
    (hget : r.get p = .ok u) (read : c.readStored r p = .ok w) (direct : c.ofStored f u q = .ok b) :
    c.ofStored f w q = .ok b := by
  rw [readStored_eq_read, Wire.read_self hc carried hget] at read
  rwa [← Except.ok.inj read]

/-- The number that a column of thirty-two bits is read as is the number in it. -/
theorem integer?_of_getInt {n : Int} {m : Word 32} (hget : r.get p = .ok u)
    (number : u.integer? = some n) (column : r.getInt p = .ok m) :
    (Value.int m).integer? = some n :=
  congrArg some (Number.toInt_of_toWord? (by decide) ((Results.getInt_eq_ok hget number).mp column))

theorem ofStored_booleanInteger (hget : r.get p = .ok u)
    (read : Codec.booleanInteger.readStored r p = .ok w)
    (direct : Codec.booleanInteger.ofStored f u q = .ok b) :
    Codec.booleanInteger.ofStored f w q = .ok b := by
  obtain ⟨n, number, rfl⟩ := map_eq_ok.mp direct
  obtain ⟨m, column, rfl⟩ := map_eq_ok.mp read
  have same := integer?_of_getInt hget (Field.expect_eq_ok.mp number) column
  have read : f.expect "integer" Value.integer? (.int m) = .ok n := Field.expect_eq_ok.mpr same
  show (fun n => Value.bool (n = 1)) <$> f.expect "integer" Value.integer? (.int m) = _
  rw [read]
  rfl

theorem ofStored_dateInteger (hget : r.get p = .ok u)
    (read : Codec.dateInteger.readStored r p = .ok w)
    (direct : Codec.dateInteger.ofStored f u q = .ok b) :
    Codec.dateInteger.ofStored f w q = .ok b := by
  obtain ⟨n, number, time⟩ := bind_eq_ok.mp direct
  obtain ⟨m, column, rfl⟩ := map_eq_ok.mp read
  have same := integer?_of_getInt hget (Field.expect_eq_ok.mp number) column
  exact bind_eq_ok.mpr ⟨n, Field.expect_eq_ok.mpr same, time⟩

theorem ofStored_enumInteger (hget : r.get p = .ok u)
    (read : Codec.enumInteger.readStored r p = .ok w)
    (direct : Codec.enumInteger.ofStored f u q = .ok b) :
    Codec.enumInteger.ofStored f w q = .ok b := by
  obtain ⟨m, ordinal, constant⟩ := bind_eq_ok.mp direct
  obtain ⟨n, number, word⟩ := Option.bind_eq_some_iff.mp (Field.expect_eq_ok.mp ordinal)
  obtain ⟨k, column, rfl⟩ := map_eq_ok.mp read
  obtain rfl : m = k := Option.some.inj
    (word.symm.trans ((Results.getInt_eq_ok hget number).mp column))
  exact bind_eq_ok.mpr ⟨m, Field.expect_eq_ok.mpr (Number.toWord?_toInt m), constant⟩

theorem ofStored_dateLong (hget : r.get p = .ok u)
    (read : Codec.dateLong.readStored r p = .ok w)
    (direct : Codec.dateLong.ofStored f u q = .ok b) :
    Codec.dateLong.ofStored f w q = .ok b := by
  obtain ⟨n, number, time⟩ := bind_eq_ok.mp direct
  have integer := Field.expect_eq_ok.mp number
  obtain ⟨m, column, rfl⟩ := map_eq_ok.mp read
  obtain rfl : BitVec.ofInt 64 n = m := Except.ok.inj
    ((Results.getLong_of_integer? hget integer).symm.trans column)
  exact bind_eq_ok.mpr ⟨n, Field.expect_eq_ok.mpr
    (congrArg some (Results.toLong?_of_integer? integer).2), time⟩

theorem ofStored_integral {width : Width} {primitive : Bool} (hget : r.get p = .ok u)
    (read : (Codec.integral width primitive).readStored r p = .ok w)
    (direct : (Codec.integral width primitive).ofStored f u q = .ok b) :
    (Codec.integral width primitive).ofStored f w q = .ok b := by
  obtain ⟨m, word, rfl⟩ := map_eq_ok.mp direct
  obtain ⟨n, number, narrow⟩ := Field.expectWord_eq_ok.mp word
  obtain ⟨fits, rfl⟩ := Number.toWord?_eq_some.mp narrow
  rw [readStored_eq_read, wire, Wire.read_word hget number fits] at read
  rw [← Except.ok.inj read]
  exact map_eq_ok.mpr ⟨_, Field.expectWord_eq_ok.mpr
    ⟨_, width.integer?_value _, Number.toWord?_toInt _⟩, rfl⟩

theorem ofStored_booleanChar (hget : r.get p = .ok u)
    (read : Codec.booleanChar.readStored r p = .ok w)
    (direct : Codec.booleanChar.ofStored f u q = .ok b) :
    Codec.booleanChar.ofStored f w q = .ok b := by
  cases u with
  | char c => exact ofStored_of_carries (by decide) (.char c) hget read direct
  | text s =>
    obtain ⟨c, single, rfl⟩ := map_eq_ok.mp direct
    have chars := Field.parseChar_eq_ok.mp single
    obtain ⟨k, column, rfl⟩ := map_eq_ok.mp read
    have first : s.toList.head? = some k := (Results.read_eq_ok hget).mp column
    rw [chars] at first
    obtain rfl : c = k := Option.some.inj first
    rfl
  | _ => cases direct

theorem ofStored_uuidNative (hget : r.get p = .ok u)
    (read : Codec.uuidNative.readStored r p = .ok w)
    (direct : Codec.uuidNative.ofStored f u q = .ok b) :
    Codec.uuidNative.ofStored f w q = .ok b := by
  cases u with
  | uuid i => exact ofStored_of_carries (by decide) (.uuid i) hget read direct
  | text s =>
    obtain ⟨i, written, rfl⟩ := map_eq_ok.mp direct
    obtain ⟨k, column, rfl⟩ := map_eq_ok.mp read
    have found : Uuid.read? (Value.trimmed s) = some k := (Results.read_eq_ok hget).mp column
    obtain rfl : i = k := Option.some.inj ((Field.parse_eq_ok.mp written).symm.trans found)
    rfl
  | _ => cases direct

/-- What the typed read makes of a value converts as the value itself does. -/
theorem ofStored_readStored (hc : c.wire ≠ .single) (hget : r.get p = .ok u)
    (read : c.readStored r p = .ok w) (direct : c.ofStored f u q = .ok b) :
    c.ofStored f w q = .ok b := by
  cases c with
  | booleanInteger => exact ofStored_booleanInteger hget read direct
  | dateInteger => exact ofStored_dateInteger hget read direct
  | enumInteger => exact ofStored_enumInteger hget read direct
  | dateLong => exact ofStored_dateLong hget read direct
  | integral _ _ => exact ofStored_integral hget read direct
  | booleanChar => exact ofStored_booleanChar hget read direct
  | uuidNative => exact ofStored_uuidNative hget read direct
  | single _ => exact absurd rfl hc
  | double _ =>
    obtain ⟨x, number, rfl⟩ := map_eq_ok.mp direct
    have wide := Value.toDouble?_of_double? (Field.expect_eq_ok.mp number)
    obtain ⟨y, column, rfl⟩ := map_eq_ok.mp read
    obtain rfl : x = y := Option.some.inj
      (wide.symm.trans ((Results.read_eq_ok hget).mp column))
    rfl
  | string | longString =>
    obtain ⟨s, text, -⟩ := map_eq_ok.mp direct
    obtain rfl := Value.text?_eq_some.mp (Field.expect_eq_ok.mp text)
    exact ofStored_of_carries hc (.text s) hget read direct
  | dateString | enumString | uuid | bigInteger | bigDecimal =>
    obtain ⟨s, text, -⟩ := bind_eq_ok.mp direct
    obtain rfl := Value.text?_eq_some.mp (Field.expect_eq_ok.mp text)
    exact ofStored_of_carries hc (.text s) hget read direct
  | byteArray =>
    obtain ⟨s, bytes, -⟩ := map_eq_ok.mp direct
    obtain rfl := Value.bytes?_eq_some.mp (Field.expect_eq_ok.mp bytes)
    exact ofStored_of_carries hc (.bytes s) hget read direct
  | stringBytes | serializable =>
    obtain ⟨s, bytes, -⟩ := bind_eq_ok.mp direct
    obtain rfl := Value.bytes?_eq_some.mp (Field.expect_eq_ok.mp bytes)
    exact ofStored_of_carries hc (.bytes s) hget read direct
  | character _ =>
    obtain ⟨x, char, -⟩ := map_eq_ok.mp direct
    obtain rfl := Value.char?_eq_some.mp (Field.expect_eq_ok.mp char)
    exact ofStored_of_carries hc (.char x) hget read direct
  | boolean _ =>
    obtain ⟨x, bool, -⟩ := map_eq_ok.mp direct
    obtain rfl := Value.bool?_eq_some.mp (Field.expect_eq_ok.mp bool)
    exact ofStored_of_carries hc (.bool x) hget read direct
  | date =>
    obtain ⟨x, time, -⟩ := map_eq_ok.mp direct
    obtain rfl := Value.timestamp?_eq_some.mp (Field.expect_eq_ok.mp time)
    exact ofStored_of_carries hc (.timestamp x) hget read direct
  | bigDecimalNumeric =>
    obtain ⟨x, decimal, -⟩ := map_eq_ok.mp direct
    obtain rfl := Value.decimal?_eq_some.mp (Field.expect_eq_ok.mp decimal)
    exact ofStored_of_carries hc (.decimal x) hget read direct

end Codec

namespace Converter

variable {dialect : Dialect} {c : Codec}

/-- The layer for booleans looks at the low octet of a number, as the column is read. -/
theorem ofBoolOrByte_of_getByte {m : Word 8} (hget : r.get p = .ok u)
    (column : r.getByte p = .ok m) (direct : f.ofBoolOrByte u = .ok b) :
    f.ofBoolOrByte (.byte m) = .ok b := by
  by_cases bool : ∃ x, u = .bool x
  · obtain ⟨x, rfl⟩ := bool
    obtain ⟨n, long, rfl⟩ := map_eq_ok.mp column
    obtain rfl : (if x then 1 else 0) = n :=
      Option.some.inj ((Results.read_eq_ok hget).mp long)
    rw [← Except.ok.inj direct]
    cases x <;> rfl
  · have number : (fun n => Value.bool (isOneByte n)) <$> f.expect "byte" Value.integer? u = .ok b := by
      unfold Field.ofBoolOrByte at direct
      split at direct
      · exact absurd ⟨_, rfl⟩ bool
      · exact direct
    obtain ⟨n, integer, rfl⟩ := map_eq_ok.mp number
    have low := Results.getByte_of_integer? hget (Field.expect_eq_ok.mp integer)
    obtain rfl : BitVec.ofInt 8 n = m := Except.ok.inj (low.symm.trans column)
    have octet : isOneByte (BitVec.ofInt 8 n).toInt = isOneByte n := by
      rw [isOneByte, isOneByte, BitVec.ofInt_toInt]
    exact congrArg (fun x => Except.ok (Value.bool x)) octet

/-- The layer for characters takes a text of one character for the character. -/
theorem ofStored_characterCompat {primitive : Bool} (hget : r.get p = .ok u)
    (read : (Converter.mk (.character primitive) [.characterCompat]).readStored r p = .ok w)
    (direct : (Converter.mk (.character primitive) [.characterCompat]).ofStored f u q = .ok b) :
    (Converter.mk (.character primitive) [.characterCompat]).ofStored f w q = .ok b := by
  obtain ⟨v, inner, rfl⟩ := map_eq_ok.mp read
  obtain ⟨k, column, rfl⟩ := map_eq_ok.mp inner
  have first : u.toChar? = some k := (Results.read_eq_ok hget).mp column
  have shown : b = .char k := by
    cases u with
    | char c =>
      obtain rfl : c = k := Option.some.inj first
      exact (Except.ok.inj direct).symm
    | text s =>
      obtain ⟨c, single, direct⟩ := bind_eq_ok.mp direct
      have head : s.toList.head? = some k := first
      rw [Field.parseChar_eq_ok.mp single] at head
      obtain rfl : c = k := Option.some.inj head
      exact (Except.ok.inj direct).symm
    | _ => cases direct
  subst shown
  exact bind_eq_ok.mpr ⟨k, Field.parseChar_eq_ok.mpr String.toList_ofList, rfl⟩

/-- Whatever layers a dialect puts around it, a codec makes the same of a value and of what the
typed read makes of it. -/
theorem ofStored_readStored (hc : c.wire ≠ .single) (hget : r.get p = .ok u)
    (read : (dialect.converter c).readStored r p = .ok w)
    (direct : (dialect.converter c).ofStored f u q = .ok b) :
    (dialect.converter c).ofStored f w q = .ok b := by
  obtain plain | ⟨_, rfl, layered⟩ | ⟨_, rfl, layered⟩ := dialect.converter_cases c
  · rw [plain] at read direct ⊢
    exact Codec.ofStored_readStored hc hget read direct
  · rw [layered] at read direct ⊢
    obtain ⟨m, column, rfl⟩ := map_eq_ok.mp read
    exact ofBoolOrByte_of_getByte hget column direct
  · rw [layered] at read direct ⊢
    exact ofStored_characterCompat hget read direct

/-- A success does not depend on the position, which is for messages only. -/
theorem ofStored_position (h : (dialect.converter c).ofStored f u p = .ok b) :
    (dialect.converter c).ofStored f u q = .ok b := by
  obtain plain | ⟨_, rfl, layered⟩ | ⟨_, rfl, layered⟩ := dialect.converter_cases c
  · rw [plain] at h ⊢
    cases c with
    | serializable =>
      obtain ⟨s, bytes, tree⟩ := bind_eq_ok.mp h
      refine bind_eq_ok.mpr ⟨s, bytes, ?_⟩
      unfold Field.ofSerialized at tree ⊢
      split at tree
      · exact tree
      · cases tree
    | _ => exact h
  · rw [layered] at h ⊢
    exact h
  · rw [layered] at h ⊢
    exact h

end Converter

/-! ### Fields -/

theorem Codec.wire_ne_single {c : Codec} {t : DataType} (codec : t.codec? = some c)
    (ht : t ≠ .float ∧ t ≠ .floatObj) : c.wire ≠ .single := by
  rintro single
  cases c with
  | single primitive =>
    have type := Codec.codec?_eq_some_iff.mp codec
    cases primitive with
    | true => exact ht.1 type.symm
    | false => exact ht.2 type.symm
  | _ => cases single

/-- A column and the value in it give the same value of the program, if both give one. -/
theorem Field.ofColumn_eq_ofStored {d : FieldDecl} {dialect : Dialect} {f : Field}
    (built : d.toField dialect = .ok f) (type : d.type ≠ .float ∧ d.type ≠ .floatObj)
    {r : Results} {p q : Nat} {u a b : Value} (hget : r.get p = .ok u)
    (column : f.ofColumn r p = .ok a) (direct : f.ofStored u q = .ok b) : a = b := by
  obtain ⟨c, built⟩ := FieldDecl.built_of_toField built
  have wire := Codec.wire_ne_single built.codec (built.decl ▸ type)
  obtain ⟨column, -⟩ := Field.ofColumn_eq_ok.mp column
  by_cases null : u = .null
  · subst null
    have empty : r.isNull p = .ok true := by
      rw [Results.isNull, hget]
      rfl
    rw [Converter.ofColumn, empty] at column
    exact (Except.ok.inj column).symm.trans (Except.ok.inj direct)
  · have nonnull : u.isNull = false := Bool.eq_false_iff.mpr fun h => null (Value.isNull_iff.mp h)
    rw [ofStored, if_neg (by rw [nonnull]; decide)] at direct
    obtain ⟨w, read, given⟩ := (Converter.ofColumn_eq_ok hget nonnull).mp column
    rw [built.converter] at read direct given
    have same := Converter.ofStored_readStored wire hget read direct
    exact Except.ok.inj ((Converter.ofStored_position given).symm.trans same)

/-- The number 257 is true where booleans travel as a byte, read from a column or not: its low octet
is one. -/
theorem Field.low_octet_read_alike : ∃ f a,
    FieldDecl.toField { name := "open", type := .boolean } .mysql = .ok f ∧
      f.ofColumn (Results.ofRow [("open", .long 257)]) 0 = .ok a ∧
      f.ofStored (.long 257) 0 = .ok a := by
  obtain ⟨f, built, column, direct⟩ : ∃ f,
      FieldDecl.toField { name := "open", type := .boolean } .mysql = .ok f ∧
        f.ofColumn (Results.ofRow [("open", .long 257)]) 0 = .ok (.bool true) ∧
        f.ofStored (.long 257) 0 = .ok (.bool true) := ⟨_, rfl, rfl, rfl⟩
  have same := Field.ofColumn_eq_ofStored built (by decide) rfl column direct
  exact ⟨f, _, built, column, same ▸ direct⟩

end Relmap
