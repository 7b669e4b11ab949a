import Relmap.Proofs.Field.TextColumn
import Relmap.Proofs.Field.WholeNumber

/-!
# Reading stays inside the declared constants

What is kept in a column of an enumeration need not be a constant of it: any text may stand for a
name, any whole number of thirty-two bits for an ordinal (`FieldDecl.Admits`). What reading makes of
it is told by the declaration alone (`FieldDecl.Resolves`): the constant that is stored so, else the
constant for unknown ones, else a failure. The lookups of a field that builds come to just that
(`FieldDecl.resolves_iff`), and they are reached from a stored value, from a column and from a text
alike (`FieldDecl.read_constant`).
-/

namespace Relmap

open Number (Fits Word readWord? toWord?)
open Outcome (map_eq_ok)

/-! ### Declared constants -/

/-- The constant is one of those declared: its name has the place in the list that its ordinal
says. -/
def FieldDecl.Declares (d : FieldDecl) (k : EnumConstant) : Prop :=
  ∃ i : Nat, d.enumConstants[i]? = some k.name ∧ k.ordinal = BitVec.ofNat 32 i

/-- The value is what a column has for the constant: its name, or its ordinal in a whole number of
whatever width. -/
inductive FieldDecl.Stores (d : FieldDecl) : Value → EnumConstant → Prop
  | name (type : d.type = .enumString) (k : EnumConstant) : d.Stores (.text k.name) k
  | ordinal (type : d.type = .enumInteger) {v : Value} {k : EnumConstant}
      (whole : v.Whole k.ordinal.toInt) : d.Stores v k

/-- The value is of the kind that a column of the field has, whether it stands for a constant or
not. -/
inductive FieldDecl.Admits (d : FieldDecl) : Value → Prop
  | text (type : d.type = .enumString) (s : String) : d.Admits (.text s)
  | number (type : d.type = .enumInteger) {v : Value} {n : Int} (whole : v.Whole n)
      (fits : Fits 32 n) : d.Admits v

/-- What the declaration says about reading a value. -/
inductive FieldDecl.Resolves (d : FieldDecl) (v : Value) : Except Failure Value → Prop
  | declared {k : EnumConstant} (declared : d.Declares k) (stored : d.Stores v k) :
    d.Resolves v (.ok (.enum k))
  | fallback {k : EnumConstant} (unknown : ∀ k, d.Declares k → ¬d.Stores v k)
      (declared : d.Declares k) (fallback : d.unknownEnum = some k.name) :
    d.Resolves v (.ok (.enum k))
  | unknown (unknown : ∀ k, d.Declares k → ¬d.Stores v k) (none : d.unknownEnum = none) :
    d.Resolves v (.error (.conversion (.unknownConstant d.name v.display)))

namespace Enumeration

variable {e : Enumeration} {k : EnumConstant} {name : String} {n : Word 32}

theorem mem_constants :
    k ∈ e.constants ↔ ∃ i : Nat, e.names[i]? = some k.name ∧ k.ordinal = BitVec.ofNat 32 i := by
  rw [constants, List.mem_iff_getElem?]
  refine exists_congr fun i => ?_
  rw [List.getElem?_mapIdx, Option.map_eq_some_iff]
  constructor
  · rintro ⟨name, found, rfl⟩
    exact ⟨found, rfl⟩
  · rintro ⟨found, ordinal⟩
    exact ⟨k.name, found, by rw [← ordinal]⟩

/-- Where the names differ, the lookup by name finds the constant of that name. -/
theorem byName?_eq_some_iff (distinct : e.names.Nodup) :
    e.byName? name = some k ↔ k ∈ e.constants ∧ k.name = name := by
  refine ⟨mem_of_byName?, ?_⟩
  rintro ⟨mem, rfl⟩
  exact byName?_self distinct mem

/-- Where no ordinal is used twice, the lookup by ordinal finds the constant with that ordinal. -/
theorem byOrdinal?_eq_some_iff (sizes : e.size = e.names.length) :
    e.byOrdinal? n = some k ↔ k ∈ e.constants ∧ k.ordinal = n := by
  refine ⟨mem_of_byOrdinal?, ?_⟩
  rintro ⟨mem, rfl⟩
  exact byOrdinal?_self sizes mem

end Enumeration

theorem FieldDecl.declares_iff {d : FieldDecl} {k : EnumConstant} :
    d.Declares k ↔ k ∈ (Enumeration.mk d.enumConstants).constants :=
  (Enumeration.mem_constants (e := ⟨d.enumConstants⟩)).symm

namespace Value.Whole

variable {v : Value} {n : Int}

theorem nonnull (h : v.Whole n) : v.isNull = false := by
  obtain ⟨w, m⟩ := h
  cases w <;> rfl

theorem display (h : v.Whole n) : v.display = Number.intText n := by
  obtain ⟨w, m⟩ := h
  exact w.display_value m

end Value.Whole

/-! ### One lookup -/

namespace Field

variable {f : Field} {e : Enumeration} {stored : String}

theorem resolve_fallback {k : EnumConstant} (h : f.unknownEnum.bind e.byName? = some k) :
    f.resolve e none stored = .ok (.enum k) := by
  rw [resolve, h]
  rfl

theorem resolve_unknown (h : f.unknownEnum.bind e.byName? = none) :
    f.resolve e none stored = .error (.conversion (.unknownConstant f.name stored)) := by
  rw [resolve, h]
  rfl

end Field

namespace FieldDecl

variable {d : FieldDecl} {dialect : Dialect} {c : Codec} {f : Field} {v : Value}
  {found : Option EnumConstant} {o : Except Failure Value}

/-- The lookup found the constant that the value stands for, if there is one. -/
def Finds (d : FieldDecl) (v : Value) (found : Option EnumConstant) : Prop :=
  ∀ k, found = some k ↔ d.Declares k ∧ d.Stores v k

theorem Finds.none_iff (finds : d.Finds v found) :
    found = none ↔ ∀ k, d.Declares k → ¬d.Stores v k := by
  simp only [Option.eq_none_iff_forall_ne_some, ne_eq, finds _, not_and]

/-- The lookup by name finds what the text stands for. -/
theorem finds_byName? (type : d.type = .enumString) (distinct : d.enumConstants.Nodup)
    (s : String) : d.Finds (.text s) ((Enumeration.mk d.enumConstants).byName? s) := by
  intro k
  rw [Enumeration.byName?_eq_some_iff distinct, declares_iff]
  refine and_congr_right fun _ => ?_
  constructor
  · rintro rfl
    exact .name type k
  · rintro (- | ⟨other, -⟩)
    · rfl
    · rw [type] at other
      cases other

/-- The lookup by ordinal finds what the number stands for. -/
theorem finds_byOrdinal? (type : d.type = .enumInteger)
    (sizes : (Enumeration.mk d.enumConstants).size = d.enumConstants.length) {n : Word 32}
    (whole : v.Whole n.toInt) :
    d.Finds v ((Enumeration.mk d.enumConstants).byOrdinal? n) := by
  intro k
  rw [Enumeration.byOrdinal?_eq_some_iff (e := ⟨d.enumConstants⟩) sizes, declares_iff]
  refine and_congr_right fun _ => ?_
  constructor
  · rintro rfl
    exact .ordinal type whole
  · rintro (⟨other, -⟩ | ⟨-, ordinal⟩)
    · rw [type] at other
      cases other
    · have number := Value.integer?_eq_some_iff.mpr whole
      rw [Value.integer?_eq_some_iff.mpr ordinal] at number
      exact BitVec.eq_of_toInt_eq (Option.some.inj number)

/-- The constant for unknown constants is found by its name. -/
theorem Built.fallback_eq_some_iff (built : d.Built dialect c f)
    (distinct : d.enumConstants.Nodup) {k : EnumConstant} :
    f.unknownEnum.bind (Enumeration.mk d.enumConstants).byName? = some k ↔
      d.Declares k ∧ d.unknownEnum = some k.name := by
  obtain rfl := built.decl
  rw [Option.bind_eq_some_iff, declares_iff]
  simp only [Enumeration.byName?_eq_some_iff (e := ⟨f.enumConstants⟩) distinct]
  constructor
  · rintro ⟨name, fallback, mem, rfl⟩
    exact ⟨mem, fallback⟩
  · rintro ⟨mem, fallback⟩
    exact ⟨k.name, fallback, mem, rfl⟩

theorem Built.fallback_eq_none_iff (built : d.Built dialect c f)
    (hc : c = .enumString ∨ c = .enumInteger) :
    f.unknownEnum.bind (Enumeration.mk d.enumConstants).byName? = none ↔ d.unknownEnum = none := by
  rw [← Option.isNone_iff_eq_none, ← Option.isNone_iff_eq_none, ← Option.not_isSome,
    ← Option.not_isSome, built.fallback_isSome hc]

section Resolve

variable (built : d.Built dialect c f) (hc : c = .enumString ∨ c = .enumInteger)
  (distinct : d.enumConstants.Nodup) (finds : d.Finds v found)

include built hc distinct finds

/-- What a lookup comes to, the declaration says. -/
theorem Finds.resolves : d.Resolves v (f.resolve ⟨d.enumConstants⟩ found v.display) := by
  obtain rfl := built.decl
  cases hfound : found with
  | some k =>
    obtain ⟨declared, stored⟩ := (finds k).mp hfound
    exact .declared declared stored
  | none =>
    have unknown := finds.none_iff.mp hfound
    cases fallback : f.unknownEnum.bind (Enumeration.mk f.enumConstants).byName? with
    | some k =>
      rw [Field.resolve_fallback fallback]
      obtain ⟨declared, named⟩ := (built.fallback_eq_some_iff distinct).mp fallback
      exact .fallback unknown declared named
    | none =>
      rw [Field.resolve_unknown fallback]
      exact .unknown unknown ((built.fallback_eq_none_iff hc).mp fallback)

/-- **A lookup comes to what the declaration says**, which says one thing. -/
theorem resolves_iff :
    d.Resolves v o ↔ o = f.resolve ⟨d.enumConstants⟩ found v.display := by
  refine ⟨fun h => ?_, fun h => h ▸ finds.resolves built hc distinct⟩
  cases h with
  | declared declared stored =>
    rw [(finds _).mpr ⟨declared, stored⟩, Field.resolve_some]
  | fallback unknown declared named =>
    rw [finds.none_iff.mpr unknown,
      Field.resolve_fallback ((built.fallback_eq_some_iff distinct).mpr ⟨declared, named⟩)]
  | unknown unknown none =>
    rw [finds.none_iff.mpr unknown,
      Field.resolve_unknown ((built.fallback_eq_none_iff hc).mpr none), ← built.decl]

end Resolve

/-- What is read is a declared constant, and with one for unknown constants something is read. -/
theorem Resolves.declares (h : d.Resolves v o) :
    (∀ x, o = .ok x → ∃ k, d.Declares k ∧ x = .enum k) ∧
      (d.unknownEnum.isSome = true → ∃ k, d.Declares k ∧ o = .ok (.enum k)) := by
  cases h with
  | declared declared _ | fallback _ declared _ =>
    exact ⟨fun x h => ⟨_, declared, (Except.ok.inj h).symm⟩, fun _ => ⟨_, declared, rfl⟩⟩
  | unknown _ none =>
    refine ⟨fun _ h => (nomatch h), fun some => ?_⟩
    rw [none] at some
    cases some

end FieldDecl

/-! ### Three ways to read -/

/-- A codec without a layer around it reads a column that is not null by its own typed read. -/
theorem Field.ofColumn_of_plain {f : Field} {c : Codec} {r : Results} {position : Nat}
    {v w : Value} (plain : f.converter = .plain c) (objects : c.isPrimitive = false)
    (hget : r.get position = .ok v) (filled : v.isNull = false)
    (typed : c.readStored r position = .ok w) :
    f.ofColumn r position = c.ofStored f w position := by
  have read : f.converter.ofColumn f r position = c.ofStored f w position := by
    rw [plain, Converter.ofColumn, Results.isNull_of_get hget, filled]
    show c.readStored r position >>= _ = _
    rw [typed]
    rfl
  rw [Field.ofColumn, read, plain]
  show (c.ofStored f w position >>= fun v =>
    if (v.isNull && f.throwIfNull && c.isPrimitive) = true then _ else _) = _
  simp only [objects, Bool.and_false, Bool.false_eq_true, if_false]
  exact bind_pure _

/-- The value is read as `o`: as a stored value, from any column that holds it, from its text. -/
structure Field.ReadsAs (f : Field) (v : Value) (o : Except Failure Value) : Prop where
  stored (position : Nat) : f.ofStored v position = o
  column (r : Results) (position : Nat) : r.get position = .ok v → f.ofColumn r position = o
  text : f.ofText v.display = o

namespace FieldDecl

variable {d : FieldDecl} {dialect : Dialect} {f : Field} {v : Value}

/-- A text is looked up by name. -/
theorem Built.reads_text (built : d.Built dialect .enumString f) (s : String) :
    f.ReadsAs (.text s)
      (f.resolve ⟨d.enumConstants⟩ ((Enumeration.mk d.enumConstants).byName? s) s) := by
  have plain : f.converter = .plain .enumString := built.converter
  rw [← built.ofConstantName]
  refine ⟨fun position => ?_, fun r position hget => ?_, ?_⟩
  · rw [Field.ofStored_of_nonnull rfl, plain]
    rfl
  · have typed : Codec.enumString.readStored r position = .ok (.text s) :=
      map_eq_ok.mpr ⟨s, (Results.getString_eq_ok hget).mpr rfl, rfl⟩
    rw [Field.ofColumn_of_plain plain rfl hget rfl typed]
    rfl
  · rw [Field.ofText, plain]
    rfl

/-- A whole number is looked up by ordinal, whatever its width. -/
theorem Built.reads_number (built : d.Built dialect .enumInteger f) {n : Word 32}
    (whole : v.Whole n.toInt) :
    f.ReadsAs v
      (f.resolve ⟨d.enumConstants⟩ ((Enumeration.mk d.enumConstants).byOrdinal? n) v.display) := by
  have plain : f.converter = .plain .enumInteger := built.converter
  have number := Value.integer?_eq_some_iff.mpr whole
  rw [whole.display, ← built.ofOrdinal]
  refine ⟨fun position => ?_, fun r position hget => ?_, ?_⟩
  · rw [Field.ofStored_of_nonnull whole.nonnull, plain]
    exact Codec.ofStored_ordinal position number
  · have typed : Codec.enumInteger.readStored r position = .ok (.int n) :=
      map_eq_ok.mpr ⟨n, (Results.getInt_eq_ok hget number).mpr (Number.toWord?_toInt n), rfl⟩
    rw [Field.ofColumn_of_plain plain rfl hget whole.nonnull typed]
    exact Codec.ofStored_ordinal position rfl
  · rw [Field.ofText, plain, whole.display]
    show f.parse "enum ordinal" (readWord? 32) (Number.intText n.toInt) >>= f.ofOrdinal = _
    rw [f.parse_intText]
    rfl

/-- Whatever a column of the field may have is looked up, the same way however it is read. -/
theorem exists_lookup (built : d.toField dialect = .ok f) (distinct : d.enumConstants.Nodup)
    (admits : d.Admits v) : ∃ c found, d.Built dialect c f ∧ (c = .enumString ∨ c = .enumInteger) ∧
      d.Finds v found ∧ f.ReadsAs v (f.resolve ⟨d.enumConstants⟩ found v.display) := by
  obtain ⟨c, built⟩ := built_of_toField built
  have codec := built.codec
  cases admits with
  | text type s =>
    rw [type] at codec
    obtain rfl : .enumString = c := Option.some.inj codec
    exact ⟨_, _, built, .inl rfl, finds_byName? type distinct s, built.reads_text s⟩
  | @number type v n whole fits =>
    rw [type] at codec
    obtain rfl : .enumInteger = c := Option.some.inj codec
    have word : v.Whole (BitVec.ofInt 32 n).toInt := by
      rwa [Number.toInt_ofInt_of_fits (by decide) fits]
    have sizes := (built.enumeration (.inr rfl)).2
    exact ⟨_, _, built, .inr rfl, finds_byOrdinal? type sizes word, built.reads_number word⟩

/-- **Reading a column of an enumeration gives what the declaration says, in every way to read it.**
A stored value, a column that holds it and its text have one outcome: the declared constant with
this name or ordinal, else the constant for unknown ones, else a failure of the conversion. So
nothing but declared constants is read, and with a constant for unknown ones reading never fails. -/
theorem read_constant (built : d.toField dialect = .ok f) (distinct : d.enumConstants.Nodup)
    (admits : d.Admits v) : ∃ o, (∀ o', d.Resolves v o' ↔ o' = o) ∧ f.ReadsAs v o ∧
      (∀ x, o = .ok x → ∃ k, d.Declares k ∧ x = .enum k) ∧
      (d.unknownEnum.isSome = true → ∃ k, d.Declares k ∧ o = .ok (.enum k)) := by
  obtain ⟨c, found, built, hc, finds, reads⟩ := exists_lookup built distinct admits
  exact ⟨_, fun _ => resolves_iff built hc distinct finds, reads,
    (finds.resolves built hc distinct).declares⟩

/-- An ordinal without a constant is read as the constant for unknown ones, and a name without a
constant is a failure where there is none for unknown names. -/
theorem unknown_ordinal_read_as_other :
    (∃ f, FieldDecl.toField
        { name := "status", type := .enumInteger, enumConstants := ["OPEN", "OTHER"],
          unknownEnum := some "OTHER" } .derby = .ok f ∧
      f.ReadsAs (.byte 0) (.ok (.enum ⟨"OPEN", 0⟩)) ∧
      f.ReadsAs (.long 7) (.ok (.enum ⟨"OTHER", 1⟩))) ∧
    ∃ f, FieldDecl.toField
        { name := "status", type := .enumString, enumConstants := ["OPEN", "OTHER"] } .sqlite =
          .ok f ∧
      f.ReadsAs (.text "SHUT") (.error (.conversion (.unknownConstant "status" "SHUT"))) := by
  constructor
  · let d : FieldDecl :=
      { name := "status", type := .enumInteger, enumConstants := ["OPEN", "OTHER"],
        unknownEnum := some "OTHER" }
    obtain ⟨f, built⟩ : ∃ f, d.toField .derby = .ok f := ⟨_, rfl⟩
    have number (w : Width) (m : Word w.bits) (fits : Fits 32 m.toInt) : d.Admits (w.value m) :=
      .number rfl (.word w m) fits
    obtain ⟨o, only, reads, -⟩ := read_constant built (by decide) (number .byte 0 (by decide))
    obtain ⟨o', only', reads', -⟩ := read_constant built (by decide) (number .long 7 (by decide))
    have declared : d.Resolves (.byte 0) (.ok (.enum ⟨"OPEN", 0⟩)) :=
      .declared ⟨0, rfl, rfl⟩ (.ordinal rfl (.word .byte 0))
    have finds : d.Finds (.long 7) none :=
      finds_byOrdinal? rfl rfl (n := 7) (.word .long 7)
    have unknown : d.Resolves (.long 7) (.ok (.enum ⟨"OTHER", 1⟩)) :=
      .fallback (finds.none_iff.mp rfl) ⟨1, rfl, rfl⟩ rfl
    rw [← (only _).mp declared] at reads
    rw [← (only' _).mp unknown] at reads'
    exact ⟨f, built, reads, reads'⟩
  · let d : FieldDecl :=
      { name := "status", type := .enumString, enumConstants := ["OPEN", "OTHER"] }
    obtain ⟨f, built⟩ : ∃ f, d.toField .sqlite = .ok f := ⟨_, rfl⟩
    obtain ⟨o, only, reads, -⟩ := read_constant built (by decide) (.text rfl "SHUT")
    have finds : d.Finds (.text "SHUT") none := finds_byName? rfl (by decide) "SHUT"
    have unknown : d.Resolves (.text "SHUT")
        (.error (.conversion (.unknownConstant "status" "SHUT"))) :=
      .unknown (finds.none_iff.mp rfl) rfl
    rw [← (only _).mp unknown] at reads
    exact ⟨f, built, reads⟩

end FieldDecl

end Relmap
