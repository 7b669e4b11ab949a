import Relmap.Field.Fetch
import Relmap.Proofs.Number.IntText
import Relmap.Proofs.Outcome

/-!
# The kinds of values that travel

Each codec stores values of one kind and reads a column as that kind (`Codec.wire`): whatever it
stores is of the kind (`Codec.toStored_carries`), the typed read of a column is chosen by the kind
alone (`Codec.readStored_eq_read`), and a column that holds a value of the kind is read as it stands
(`Wire.read_self`). Single precision is apart: it is read by way of double precision.
-/

namespace Relmap

open Number (Double Scaled Single Word toWord?)
open Calendar (Timestamp)
open Outcome (bind_eq_ok map_eq_ok pure_eq_ok)

/-- A kind of stored values. -/
inductive Wire
  | text
  | bytes
  | char
  | bool
  | word (w : Width)
  | single
  | double
  | timestamp
  | uuid
  | decimal
  deriving DecidableEq

namespace Wire

/-- The values of a kind. -/
inductive Carries : Wire → Value → Prop
  | text (s : String) : Carries .text (.text s)
  | bytes (b : List UInt8) : Carries .bytes (.bytes b)
  | char (c : Char) : Carries .char (.char c)
  | bool (b : Bool) : Carries .bool (.bool b)
  | word (w : Width) (n : Word w.bits) : Carries (.word w) (w.value n)
  | single (x : Single) : Carries .single (.float x)
  | double (x : Double) : Carries .double (.double x)
  | timestamp (t : Timestamp) : Carries .timestamp (.timestamp t)
  | uuid (u : Uuid) : Carries .uuid (.uuid u)
  | decimal (d : Scaled) : Carries .decimal (.decimal d)

/-- A column read as a value of a kind. -/
def read (r : Results) (position : Nat) : Wire → Except Failure Value
  | .text => .text <$> r.getString position
  | .bytes => .bytes <$> r.getBytes position
  | .char => .char <$> r.getChar position
  | .bool => .bool <$> r.getBoolean position
  | .word .byte => .byte <$> r.getByte position
  | .word .short => .short <$> r.getShort position
  | .word .int => .int <$> r.getInt position
  | .word .long => .long <$> r.getLong position
  | .single => .float <$> r.getFloat position
  | .double => .double <$> r.getDouble position
  | .timestamp => .timestamp <$> r.getTimestamp position
  | .uuid => .uuid <$> r.getUuid position
  | .decimal => .decimal <$> r.getDecimal position

end Wire

/-- The kind of values a codec stores. -/
def Codec.wire : Codec → Wire
  | .string | .longString | .dateString | .enumString | .uuid | .bigInteger | .bigDecimal => .text
  | .stringBytes | .byteArray | .serializable => .bytes
  | .character _ | .booleanChar => .char
  | .boolean _ => .bool
  | .integral w _ => .word w
  | .booleanInteger | .dateInteger | .enumInteger => .word .int
  | .dateLong => .word .long
  | .single _ => .single
  | .double _ => .double
  | .date => .timestamp
  | .uuidNative => .uuid
  | .bigDecimalNumeric => .decimal

theorem Width.integer?_value (w : Width) (n : Word w.bits) : (w.value n).integer? = some n.toInt := by
  cases w <;> rfl

/-! ### Typed reads -/

namespace Results

variable {α : Type} {r : Results} {position : Nat} {u : Value}

/-- A typed read gives what the coercion makes of the value of the column. -/
theorem read_eq_ok {target : String} {coerce? : Value → Option α} {a : α}
    (hget : r.get position = .ok u) :
    r.read position target coerce? = .ok a ↔ coerce? u = some a := by
  rw [read, bind_eq_ok]
  simp only [hget, Except.ok.injEq, exists_eq_left']
  exact Outcome.found_eq_ok

theorem isNull_of_get (hget : r.get position = .ok u) : r.isNull position = .ok u.isNull := by
  rw [isNull, hget]
  rfl

theorem getString_eq_ok {s : String} (hget : r.get position = .ok u) :
    r.getString position = .ok s ↔ u.display = s := by
  rw [getString, hget]
  exact pure_eq_ok

/-! ### Whole numbers -/

/-- A whole number of up to sixty-four bits is read as a long one. -/
theorem toLong?_of_integer? {n : Int} (h : u.integer? = some n) :
    u.toLong? = some (BitVec.ofInt 64 n) ∧ (BitVec.ofInt 64 n).toInt = n := by
  have widened (bits : Nat) (hb : bits ≤ 64) (m : Word bits) :
      (BitVec.ofInt 64 m.toInt).toInt = m.toInt := BitVec.toInt_signExtend_of_le hb
  cases u with
  | byte m | short m | int m | long m =>
    obtain rfl : m.toInt = n := Option.some.inj h
    exact ⟨rfl, widened _ (by decide) m⟩
  | _ => cases h

variable {n : Int}

theorem getLong_of_integer? (hget : r.get position = .ok u) (h : u.integer? = some n) :
    r.getLong position = .ok (BitVec.ofInt 64 n) :=
  (read_eq_ok hget).mpr (toLong?_of_integer? h).1

/-- The low bits of a whole number are those of its long form. -/
theorem setWidth_ofInt {bits : Nat} (h : bits ≤ 64) (n : Int) :
    (BitVec.ofInt 64 n).setWidth bits = BitVec.ofInt bits n := by
  have hdvd : ((2 ^ bits : Nat) : Int) ∣ (2 ^ 64 : Nat) :=
    Int.natCast_dvd_natCast.mpr (Nat.pow_dvd_pow 2 h)
  have hwide : 0 ≤ n % (2 ^ 64 : Nat) := Int.emod_nonneg n (by decide)
  apply BitVec.eq_of_toNat_eq
  rw [BitVec.toNat_setWidth, BitVec.toNat_ofInt, BitVec.toNat_ofInt, ← Int.emod_emod_of_dvd n hdvd,
    Int.toNat_emod hwide (Int.natCast_nonneg _), Int.toNat_natCast]

theorem getByte_of_integer? (hget : r.get position = .ok u) (h : u.integer? = some n) :
    r.getByte position = .ok (BitVec.ofInt 8 n) := by
  have long := (toLong?_of_integer? h).1
  exact map_eq_ok.mpr ⟨_, (read_eq_ok hget).mpr long, setWidth_ofInt (by decide) n⟩

theorem getShort_of_integer? (hget : r.get position = .ok u) (h : u.integer? = some n) :
    r.getShort position = .ok (BitVec.ofInt 16 n) := by
  have long := (toLong?_of_integer? h).1
  exact map_eq_ok.mpr ⟨_, (read_eq_ok hget).mpr long, setWidth_ofInt (by decide) n⟩

/-- A number of thirty-two bits is checked, not cut. -/
theorem getInt_eq_ok {m : Word 32} (hget : r.get position = .ok u) (h : u.integer? = some n) :
    r.getInt position = .ok m ↔ toWord? 32 n = some m := by
  obtain ⟨long, number⟩ := toLong?_of_integer? h
  rw [getInt, bind_eq_ok]
  simp only [read_eq_ok hget, long, Option.some.injEq, exists_eq_left', number]
  cases toWord? 32 n with
  | none => exact ⟨fun h => (nomatch h), fun h => (nomatch h)⟩
  | some k => exact pure_eq_ok.trans Option.some_inj.symm

end Results

namespace Wire

variable {r : Results} {position : Nat} {u : Value} {k : Wire}

/-- A whole number that fits a width is read as the word of that width. -/
theorem read_word {w : Width} {n : Int} (hget : r.get position = .ok u) (h : u.integer? = some n)
    (fits : Number.Fits w.bits n) : read r position (.word w) = .ok (w.value (BitVec.ofInt _ n)) := by
  cases w with
  | byte => exact map_eq_ok.mpr ⟨_, Results.getByte_of_integer? hget h, rfl⟩
  | short => exact map_eq_ok.mpr ⟨_, Results.getShort_of_integer? hget h, rfl⟩
  | int =>
    have word : toWord? 32 n = some (BitVec.ofInt 32 n) := if_pos fits
    exact map_eq_ok.mpr ⟨_, (Results.getInt_eq_ok hget h).mpr word, rfl⟩
  | long => exact map_eq_ok.mpr ⟨_, Results.getLong_of_integer? hget h, rfl⟩

/-- A column that holds a value of a kind is read as that value. -/
theorem read_self (hk : k ≠ .single) (h : k.Carries u) (hget : r.get position = .ok u) :
    k.read r position = .ok u := by
  cases h with
  | word w n =>
    have word := read_word hget (w.integer?_value n) (Number.fits_toInt n)
    rwa [BitVec.ofInt_toInt] at word
  | text s => exact map_eq_ok.mpr ⟨s, (Results.getString_eq_ok hget).mpr rfl, rfl⟩
  | single x => exact absurd rfl hk
  | bytes _ | char _ | bool _ | double _ | timestamp _ | uuid _ | decimal _ =>
    exact map_eq_ok.mpr ⟨_, (Results.read_eq_ok hget).mpr rfl, rfl⟩

theorem Carries.nonnull (h : k.Carries u) : u.isNull = false := by
  cases h with
  | word w n => cases w <;> rfl
  | _ => rfl

end Wire

/-! ### Codecs -/

namespace Codec

variable {f : Field} {v w : Value}

/-- The typed read of a column depends on the kind of the stored values only. -/
theorem readStored_eq_read (c : Codec) (r : Results) (position : Nat) :
    c.readStored r position = c.wire.read r position := by
  cases c with
  | integral w _ => cases w <;> rfl
  | _ => rfl

/-- What a codec stores is of its kind. -/
theorem toStored_carries {c : Codec} (h : c.toStored f v = .ok w) : c.wire.Carries w := by
  cases c with
  | dateInteger | dateString =>
    obtain ⟨_, -, h⟩ := bind_eq_ok.mp h
    obtain ⟨_, -, h⟩ := bind_eq_ok.mp h
    rw [← pure_eq_ok.mp h]
    constructor
  | booleanInteger | enumInteger =>
    obtain ⟨_, -, rfl⟩ := map_eq_ok.mp h
    exact .word .int _
  | dateLong =>
    obtain ⟨_, -, rfl⟩ := map_eq_ok.mp h
    exact .word .long _
  | _ =>
    obtain ⟨_, -, rfl⟩ := map_eq_ok.mp h
    constructor

end Codec

/-! ### Layers -/

/-- A dialect puts no layer around a codec but the one for booleans or the one for characters. -/
theorem Dialect.converter_cases (dialect : Dialect) (c : Codec) :
    dialect.converter c = .plain c ∨
      (∃ p, c = .boolean p ∧ dialect.converter c = ⟨c, [.booleanNumber]⟩) ∨
      (∃ p, c = .character p ∧ dialect.converter c = ⟨c, [.characterCompat]⟩) := by
  unfold Dialect.converter
  split
  · split
    · exact .inr (.inl ⟨_, rfl, rfl⟩)
    · exact .inl rfl
  · split
    · exact .inr (.inr ⟨_, rfl, rfl⟩)
    · exact .inl rfl
  · exact .inl rfl

end Relmap
