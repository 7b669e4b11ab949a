import Relmap.Proofs.Field.RoundTrip
import Relmap.Proofs.Field.Column
import Relmap.Proofs.Table.KnownColumns

/-!
# The key given by the database

A key that the database gives to a new row becomes the id of the row, cut to the low bits that the
type of the id has room for. When the row is read later its key comes through the typed read of the
column: a byte and a short number are cut there too, a number of thirty-two bits is checked, and a
large one is read from the text of the key. Whichever way it comes, a key that is read is the id that
was assigned (`Codec.ofColumn_key_iff`), and assigning it writes that one column and no other
(`Table.assigned_key_read_back`).
-/

namespace Relmap

open Number (Fits Word)
open Outcome (bind_eq_ok map_eq_ok)
open Text (sameName)

variable {f : Field} {r : Results} {position : Nat} {key : Word 64} {u v : Value}

/-! ### Reading a key -/

/-- A key is read as a word of a width by its low bits, or not at all. -/
theorem Wire.read_key_iff {w : Width} (hget : r.get position = .ok (.long key)) :
    (Wire.word w).read r position = .ok u ↔
      u = w.value (BitVec.ofInt _ key.toInt) ∧ (w = .int → Fits 32 key.toInt) := by
  have number : (Value.long key).integer? = some key.toInt := rfl
  have whole (fits : w = .int → Fits 32 key.toInt) :
      (Wire.word w).read r position = .ok (w.value (BitVec.ofInt _ key.toInt)) := by
    cases w with
    | byte => exact map_eq_ok.mpr ⟨_, Results.getByte_of_integer? hget number, rfl⟩
    | short => exact map_eq_ok.mpr ⟨_, Results.getShort_of_integer? hget number, rfl⟩
    | int => exact read_word hget number (fits rfl)
    | long => exact map_eq_ok.mpr ⟨_, Results.getLong_of_integer? hget number, rfl⟩
  constructor
  · intro read
    have fits : w = .int → Fits 32 key.toInt := by
      rintro rfl
      obtain ⟨m, column, -⟩ := map_eq_ok.mp read
      exact (Number.toWord?_eq_some.mp ((Results.getInt_eq_ok hget number).mp column)).1
    rw [whole fits] at read
    exact ⟨(Except.ok.inj read).symm, fits⟩
  · rintro ⟨rfl, fits⟩
    exact whole fits

namespace Codec

variable {w : Width} {p : Bool}

theorem ofColumn_integral_iff (hget : r.get position = .ok (.long key)) :
    (Converter.plain (.integral w p)).ofColumn f r position = .ok v ↔
      v = w.value (BitVec.ofInt _ key.toInt) ∧ (w = .int → Fits 32 key.toInt) := by
  have given (n : Word w.bits) := (keeps_integral (f := f) w p n).gives position
  rw [Converter.ofColumn_eq_ok hget rfl]
  constructor
  · rintro ⟨u, read, converted⟩
    obtain ⟨rfl, fits⟩ := (Wire.read_key_iff hget).mp ((readStored_eq_read _ _ _).symm.trans read)
    exact ⟨Except.ok.inj (converted.symm.trans (given _)), fits⟩
  · rintro ⟨rfl, fits⟩
    exact ⟨_, (readStored_eq_read _ _ _).trans ((Wire.read_key_iff hget).mpr ⟨rfl, fits⟩), given _⟩

/-- A large number is read from the text of the key. -/
theorem ofColumn_bigInteger_iff (hget : r.get position = .ok (.long key)) :
    (Converter.plain .bigInteger).ofColumn f r position = .ok v ↔
      v = .bigInteger (BitVec.ofInt 128 key.toInt) := by
  have same : (BitVec.ofInt 128 key.toInt).toInt = key.toInt :=
    BitVec.toInt_signExtend_of_le (by decide)
  have given := (keeps_bigInteger (f := f) (BitVec.ofInt 128 key.toInt)).gives position
  rw [same] at given
  have text : (Converter.plain .bigInteger).readStored r position =
      .ok (.text (Number.intText key.toInt)) :=
    map_eq_ok.mpr ⟨_, (Results.getString_eq_ok hget).mpr rfl, rfl⟩
  rw [Converter.ofColumn_eq_ok hget rfl]
  simp only [text, Except.ok.injEq, exists_eq_left', given]
  exact eq_comm

/-- **A key that is read is the one that is assigned.** A key is not read only if it is wider than the
thirty-two bits of its type. -/
theorem ofColumn_key_iff {c : Codec} (numeric : c = .bigInteger ∨ ∃ w p, c = .integral w p)
    (hget : r.get position = .ok (.long key)) :
    (Converter.plain c).ofColumn f r position = .ok v ↔
      c.ofKey? key = some v ∧ ((∃ p, c = .integral .int p) → Fits 32 key.toInt) := by
  rcases numeric with rfl | ⟨w, p, rfl⟩
  · rw [ofColumn_bigInteger_iff hget]
    simp [ofKey?, eq_comm]
  · rw [ofColumn_integral_iff hget]
    have int : (∃ p', Codec.integral w p = .integral .int p') ↔ w = .int := by
      simp
    rw [int, ofKey?, Option.some_inj, eq_comm]

theorem nonnull_of_ofKey? {c : Codec} (h : c.ofKey? key = some v) : v.isNull = false := by
  cases c with
  | integral w p =>
    obtain rfl := Option.some.inj h
    exact (Wire.Carries.word w _).nonnull
  | bigInteger =>
    obtain rfl := Option.some.inj h
    rfl
  | _ => cases h

end Codec

namespace Field

variable {d : FieldDecl} {dialect : Dialect} {c : Codec}

theorem ofKey_eq_ok : f.ofKey key = .ok v ↔ f.converter.codec.ofKey? key = some v := by
  rw [ofKey]
  cases f.converter.codec.ofKey? key with
  | none => exact ⟨fun h => (nomatch h), fun h => (nomatch h)⟩
  | some u => exact Outcome.pure_eq_ok.trans Option.some_inj.symm

theorem converter_of_numeric (built : d.toField dialect = .ok f) (type : d.type.codec? = some c)
    (numeric : c = .bigInteger ∨ ∃ w p, c = .integral w p) : f.converter = .plain c := by
  rw [FieldDecl.converter_of_toField built type]
  rcases numeric with rfl | ⟨w, p, rfl⟩ <;> rfl

/-- The same for a field: what its column gives for a key is the id that it makes of the key. -/
theorem ofColumn_key_iff (built : d.toField dialect = .ok f) (type : d.type.codec? = some c)
    (numeric : c = .bigInteger ∨ ∃ w p, c = .integral w p)
    (hget : r.get position = .ok (.long key)) :
    f.ofColumn r position = .ok v ↔
      f.ofKey key = .ok v ∧ ((∃ p, c = .integral .int p) → Fits 32 key.toInt) := by
  rw [ofColumn_eq_ok, ofKey_eq_ok, converter_of_numeric built type numeric,
    Codec.ofColumn_key_iff numeric hget]
  constructor
  · rintro ⟨read, -⟩
    exact read
  · rintro ⟨assigned, fits⟩
    exact ⟨⟨assigned, fits⟩, by rw [Codec.nonnull_of_ofKey? assigned]; rfl⟩

/-- Every key becomes an id. -/
theorem exists_ofKey (built : d.toField dialect = .ok f) (type : d.type.codec? = some c)
    (numeric : c = .bigInteger ∨ ∃ w p, c = .integral w p) (key : Word 64) :
    ∃ v, f.ofKey key = .ok v := by
  have taken : c.takesKeys = true := by
    rcases numeric with rfl | ⟨w, p, rfl⟩ <;> rfl
  rw [← c.isSome_ofKey? key] at taken
  obtain ⟨v, assigned⟩ := Option.isSome_iff_exists.mp taken
  refine ⟨v, ofKey_eq_ok.mpr ?_⟩
  rwa [converter_of_numeric built type numeric]

end Field

/-! ### Rows -/

namespace Table

variable {d : FieldDecl} {dialect : Dialect} {c : Codec} {t : Table}

theorem assignId_of_ofKey (id : t.idField? = some f) (generated : f.generatedId = true)
    (assigned : f.ofKey key = .ok v) (row : Row) :
    t.assignId row key = .ok (row.set f.column v) := by
  rw [assignId, id]
  dsimp only
  rw [if_pos generated, assigned]
  rfl

/-- **The id that is assigned after an insert is the id that is read back.** In a table whose id is
made by the database and is a number, every key is assigned, and that writes the column of the id and
no other: the columns stand as before, with one more if the row had no id. A result row with the key
in the column of the id is read with the very id that was assigned, if it is read; the id does not
stand in its way unless it has thirty-two bits and the key has more. -/
theorem assigned_key_read_back (built : d.toField dialect = .ok f) (type : d.type.codec? = some c)
    (numeric : c = .bigInteger ∨ ∃ w p, c = .integral w p) (id : t.idField? = some f)
    (generated : f.generatedId = true) (key : Word 64) (row : Row) :
    ∃ v row', t.assignId row key = .ok row' ∧ row'.get? f.column = some v ∧
      Row.Written f.column v row.columns row'.columns ∧
      (∀ name, sameName f.column name = false → row'.get? name = row.get? name) ∧
      row'.size = row.size + (if (row.get? f.column).isNone then 1 else 0) ∧
      ∀ r position, r.FirstAt f.column position → r.get position = .ok (.long key) →
        ((∃ u, f.ofColumn r position = .ok u) ↔
          ((∃ p, c = .integral .int p) → Fits 32 key.toInt)) ∧
        ∀ read, t.mapRow r = .ok read →
          ∀ name, sameName f.column name = true → read.get? name = some v := by
  obtain ⟨v, assigned⟩ := Field.exists_ofKey built type numeric key
  have written := Row.written_setIn f.column v row.columns
  refine ⟨v, row.set f.column v, assignId_of_ofKey id generated assigned row, ?_, written,
    fun name other => ?_, written.length_eq, fun r position first hget => ?_⟩
  · rw [Row.get?_set, if_pos (Text.sameName_self _)]
  · rw [Row.get?_set, other]
    rfl
  · have column (u : Value) := Field.ofColumn_key_iff (v := u) built type numeric hget
    refine ⟨⟨?_, fun fits => ⟨v, (column v).mpr ⟨assigned, fits⟩⟩⟩, fun read mapped name same => ?_⟩
    · rintro ⟨u, read⟩
      exact ((column u).mp read).2
    obtain ⟨u, given, found⟩ := exists_read_of_mapRow mapped (List.mem_of_find?_eq_some id) first
    obtain rfl : v = u := Except.ok.inj (assigned.symm.trans ((column u).mp given).1)
    exact found name same

/-- A key of nine bits becomes the eight bits of a byte where the row has its id, whatever the letter
case, and so it is read. -/
theorem byte_id_of_wide_key : ∃ id name t read,
    FieldDecl.toField { name := "id", type := .byte, generatedId := true } .derby = .ok id ∧
    FieldDecl.toField { name := "name", type := .string } .derby = .ok name ∧
    make "account" [name, id] = .ok t ∧
    t.assignId ⟨[("ID", .byte 3), ("name", .text "a")]⟩ 300 =
      .ok ⟨[("ID", .byte 44), ("name", .text "a")]⟩ ∧
    t.mapRow (.ofRow [("Id", .long 300), ("NAME", .text "a")]) = .ok read ∧
    read.get? "iD" = some (.byte 44) := by
  obtain ⟨id, name, t, read, hid, hname, ht, hread, hfound, hcolumn, hgenerated, hassigned⟩ :
      ∃ id name t read,
        FieldDecl.toField { name := "id", type := .byte, generatedId := true } .derby = .ok id ∧
        FieldDecl.toField { name := "name", type := .string } .derby = .ok name ∧
        make "account" [name, id] = .ok t ∧
        t.mapRow (.ofRow [("Id", .long 300), ("NAME", .text "a")]) = .ok read ∧
        t.idField? = some id ∧ id.column = "id" ∧ id.generatedId = true ∧
        t.assignId ⟨[("ID", .byte 3), ("name", .text "a")]⟩ 300 =
          .ok ⟨[("ID", .byte 44), ("name", .text "a")]⟩ :=
    ⟨_, _, _, _, rfl, rfl, rfl, rfl, rfl, rfl, rfl, rfl⟩
  obtain ⟨v, row, assigned, given, -, -, -, back⟩ := assigned_key_read_back hid rfl
    (.inr ⟨_, _, rfl⟩) hfound hgenerated 300 ⟨[("ID", .byte 3), ("name", .text "a")]⟩
  obtain rfl := Except.ok.inj (assigned.symm.trans hassigned)
  rw [hcolumn] at given back
  obtain rfl : v = .byte 44 := (Option.some.inj given).symm
  refine ⟨id, name, t, read, hid, hname, ht, hassigned, hread, ?_⟩
  exact (back _ 0 ⟨⟨"Id", rfl, rfl⟩, fun _ h => nomatch h⟩ rfl).2 read hread "iD" rfl

end Table

end Relmap
