import Mathlib.Data.List.Basic
import Relmap.Proofs.Results
import Relmap.Proofs.Row
import Relmap.Proofs.Table

/-!
# The row of a table from result columns

A table takes from a result row the columns that it knows. Fields are looked up one after another,
each at the first result column of its name, and a field without such a column is passed over. Apart
from the cursor being closed this is one list of fields with their positions
(`Results.positions`), each of which is read (`Table.mapFields_eq`): the row holds them in this order,
and what fails is the first read that fails.

The three lookups by name, of the table, of the results and of the row, compare names alike, and the
columns of a table differ by more than letter case. So no field hides another one in the row
(`Table.mapRow_known_columns`).
-/

namespace Relmap

open Outcome
open Text (sameName)

/-! ### Positions of columns -/

namespace Results

/-- The first result column of a name, up to letter case, has this position. -/
structure FirstAt (r : Results) (name : String) (position : Nat) : Prop where
  named : ∃ c, r.columns[position]? = some c ∧ sameName c name = true
  first : ∀ c ∈ r.columns.take position, sameName c name = false

variable {r : Results} {name : String} {position : Nat}

theorem firstAt_iff :
    r.FirstAt name position ↔ r.columns.findIdx? (fun c => sameName c name) = some position := by
  rw [List.findIdx?_eq_some_iff_getElem]
  constructor
  · rintro ⟨⟨c, at_, same⟩, first⟩
    obtain ⟨inside, rfl⟩ := List.getElem?_eq_some_iff.mp at_
    refine ⟨inside, same, fun i before => Bool.eq_false_iff.mp (first _ ?_)⟩
    exact List.mem_take_iff_getElem.mpr ⟨i, by omega, rfl⟩
  · rintro ⟨inside, same, earlier⟩
    refine ⟨⟨_, List.getElem?_eq_getElem inside, same⟩, fun c hc => ?_⟩
    obtain ⟨i, before, rfl⟩ := List.mem_take_iff_getElem.mp hc
    exact Bool.eq_false_iff.mpr (earlier i (by omega))

theorem findColumn_of_closed (closed : r.closed = true) (name : String) :
    r.findColumn name = .error (.access .closed) := by
  rw [findColumn, checkOpen_of_closed closed]
  rfl

theorem findColumn_of_open (isOpen : r.closed = false) (name : String) :
    r.findColumn name = .ok (r.columns.findIdx? fun c => sameName c name) := by
  rw [findColumn, checkOpen_of_open isOpen]
  rfl

/-- The fields that have a column in the results, each with its first position. -/
def positions (r : Results) (fields : List Field) : List (Field × Nat) :=
  fields.filterMap fun f =>
    (r.columns.findIdx? fun c => sameName c f.column).map fun position => (f, position)

variable {fields : List Field} {f : Field}

theorem lookup_eq_some_iff {x : Field × Nat} :
    (r.columns.findIdx? fun c => sameName c f.column).map (fun position => (f, position)) =
      some x ↔ x.1 = f ∧ r.FirstAt f.column x.2 := by
  obtain ⟨g, position⟩ := x
  rw [firstAt_iff, Option.map_eq_some_iff]
  constructor
  · rintro ⟨p, found, same⟩
    cases same
    exact ⟨rfl, found⟩
  · rintro ⟨rfl, found⟩
    exact ⟨position, found, rfl⟩

theorem mem_positions {x : Field × Nat} :
    x ∈ r.positions fields ↔ x.1 ∈ fields ∧ r.FirstAt x.1.column x.2 := by
  rw [positions, List.mem_filterMap]
  constructor
  · rintro ⟨f, hf, found⟩
    obtain ⟨rfl, first⟩ := lookup_eq_some_iff.mp found
    exact ⟨hf, first⟩
  · rintro ⟨hf, first⟩
    exact ⟨x.1, hf, lookup_eq_some_iff.mpr ⟨rfl, first⟩⟩

/-- The fields with a position are those whose name a result column has, in the same order. -/
theorem map_fst_positions (r : Results) (fields : List Field) :
    (r.positions fields).map (·.1) =
      fields.filter fun f => r.columns.any fun c => sameName c f.column := by
  rw [positions, List.map_filterMap, ← List.filterMap_eq_filter]
  refine List.filterMap_congr fun f _ => ?_
  rw [Option.guard, ← List.findIdx?_isSome]
  cases r.columns.findIdx? fun c => sameName c f.column <;> rfl

/-- Fields and positions split where the fields do. -/
theorem positions_eq_append_cons_iff {before after : List (Field × Nat)} {x : Field × Nat} :
    r.positions fields = before ++ x :: after ↔
      ∃ earlier later, fields = earlier ++ x.1 :: later ∧ r.FirstAt x.1.column x.2 ∧
        r.positions earlier = before ∧ r.positions later = after := by
  rw [positions, List.filterMap_eq_append_iff]
  constructor
  · rintro ⟨l₁, l₂, rfl, first, rest⟩
    obtain ⟨skipped, f, later, rfl, unknown, found, last⟩ := List.filterMap_eq_cons_iff.mp rest
    obtain ⟨rfl, position⟩ := lookup_eq_some_iff.mp found
    refine ⟨l₁ ++ skipped, later, by simp, position, ?_, last⟩
    rw [positions, List.filterMap_append, first, List.filterMap_eq_nil_iff.mpr unknown,
      List.append_nil]
  · rintro ⟨earlier, later, rfl, position, rfl, rfl⟩
    refine ⟨earlier, x.1 :: later, rfl, rfl, ?_⟩
    exact List.filterMap_eq_cons_iff.mpr
      ⟨[], x.1, later, rfl, by simp, lookup_eq_some_iff.mpr ⟨rfl, position⟩, rfl⟩

end Results

/-! ### Reading the known columns -/

/-- The column of a field, with the value it has at a position. -/
def Field.readAt (r : Results) (x : Field × Nat) : Except Failure (String × Value) :=
  (fun v => (x.1.column, v)) <$> x.1.ofColumn r x.2

namespace Table

variable {t : Table} {r : Results} {fields : List Field}

theorem mapFields_of_closed (closed : r.closed = true) (row : Row) :
    mapFields r fields row = if fields = [] then .ok row else .error (.access .closed) := by
  cases fields with
  | nil => rfl
  | cons f rest =>
    rw [mapFields, Results.findColumn_of_closed closed]
    rfl

/-- **The fields that have a position are read there**, one after another. -/
theorem mapFields_eq (isOpen : r.closed = false) (row : Row) :
    mapFields r fields row =
      (fun cs => ⟨row.columns ++ cs⟩) <$> (r.positions fields).mapM (Field.readAt r) := by
  induction fields generalizing row with
  | nil =>
    show Except.ok row = .ok ⟨row.columns ++ []⟩
    rw [List.append_nil]
  | cons f rest ih =>
    rw [mapFields, Results.findColumn_of_open isOpen, Results.positions, List.filterMap_cons]
    cases r.columns.findIdx? fun c => sameName c f.column with
    | none => exact ih row
    | some position =>
      show (f.ofColumn r position >>= fun v => mapFields r rest (row.push f.column v)) =
        (fun cs => ⟨row.columns ++ cs⟩) <$>
          ((f, position) :: r.positions rest).mapM (Field.readAt r)
      rw [List.mapM_cons, Field.readAt]
      cases f.ofColumn r position with
      | error e => rfl
      | ok v =>
        show mapFields r rest (row.push f.column v) = _
        rw [ih]
        show (fun cs => Row.mk ((row.columns ++ [(f.column, v)]) ++ cs)) <$>
          (r.positions rest).mapM (Field.readAt r) = _
        cases (r.positions rest).mapM (Field.readAt r) with
        | error e => rfl
        | ok cs => exact congrArg (fun l => Except.ok (Row.mk l)) (List.append_assoc _ _ _)

/-! ### What has been read -/

section

variable {l : List (Field × Nat)} {cs : List (String × Value)} {e : Failure}

/-- Columns that have been read are called as their fields. -/
theorem map_fst_of_readAt (read : l.mapM (Field.readAt r) = .ok cs) :
    cs.map (·.1) = l.map (·.1.column) := by
  induction l generalizing cs with
  | nil =>
    obtain rfl := pure_eq_ok.mp read
    rfl
  | cons x l ih =>
    rw [List.mapM_cons] at read
    obtain ⟨c, first, read⟩ := bind_eq_ok.mp read
    obtain ⟨rest, others, read⟩ := bind_eq_ok.mp read
    obtain ⟨v, -, rfl⟩ := map_eq_ok.mp first
    rw [← pure_eq_ok.mp read, List.map_cons, List.map_cons, ih others]

/-- Every position has been read. -/
theorem exists_of_readAt (read : l.mapM (Field.readAt r) = .ok cs) {x : Field × Nat} (hx : x ∈ l) :
    ∃ v, x.1.ofColumn r x.2 = .ok v ∧ (x.1.column, v) ∈ cs := by
  have outcome : Field.readAt r x ∈ cs.map .ok :=
    mapM_eq_ok.mp read ▸ List.mem_map_of_mem hx
  obtain ⟨c, hc, gives⟩ := List.mem_map.mp outcome
  obtain ⟨v, column, rfl⟩ := map_eq_ok.mp gives.symm
  exact ⟨v, column, hc⟩

theorem readAt_eq_error {x : Field × Nat} :
    Field.readAt r x = .error e ↔ x.1.ofColumn r x.2 = .error e := by
  rw [Field.readAt]
  cases x.1.ofColumn r x.2 with
  | error e' =>
    constructor <;> exact fun h => congrArg _ (Except.error.inj h)
  | ok v => exact ⟨fun h => (nomatch h), fun h => (nomatch h)⟩

theorem exists_readAt_iff {x : Field × Nat} :
    (∃ c, Field.readAt r x = .ok c) ↔ ∃ v, x.1.ofColumn r x.2 = .ok v := by
  constructor
  · rintro ⟨c, read⟩
    obtain ⟨v, column, -⟩ := map_eq_ok.mp read
    exact ⟨v, column⟩
  · rintro ⟨v, column⟩
    exact ⟨_, map_eq_ok.mpr ⟨v, column, rfl⟩⟩

/-- Reading fails as the first field that fails at its position. -/
theorem mapM_readAt_eq_error :
    (r.positions fields).mapM (Field.readAt r) = .error e ↔
      ∃ before f after position, fields = before ++ f :: after ∧ r.FirstAt f.column position ∧
        f.ofColumn r position = .error e ∧
        ∀ g ∈ before, ∀ q, r.FirstAt g.column q → ∃ v, g.ofColumn r q = .ok v := by
  rw [mapM_eq_error]
  constructor
  · rintro ⟨before, x, after, split, oks, failed⟩
    obtain ⟨earlier, later, rfl, first, rfl, -⟩ := Results.positions_eq_append_cons_iff.mp split
    refine ⟨earlier, x.1, later, x.2, rfl, first, readAt_eq_error.mp failed, fun g hg q hq => ?_⟩
    exact exists_readAt_iff.mp (oks (g, q) (Results.mem_positions.mpr ⟨hg, hq⟩))
  · rintro ⟨earlier, f, later, position, rfl, first, failed, oks⟩
    refine ⟨r.positions earlier, (f, position), r.positions later, ?_, fun x hx => ?_,
      readAt_eq_error.mpr failed⟩
    · exact Results.positions_eq_append_cons_iff.mpr ⟨earlier, later, rfl, first, rfl, rfl⟩
    · obtain ⟨hx, first⟩ := Results.mem_positions.mp hx
      exact exists_readAt_iff.mpr (oks x.1 hx x.2 first)

end

/-! ### Rows of a table -/

theorem apart (t : Table) : t.fields.Pairwise Field.Apart :=
  (tableFault?_eq_none_iff.mp t.sound).1

/-- A row of a table comes from reading the fields that have a position. -/
theorem mapRow_eq_ok {row : Row} :
    t.mapRow r = .ok row ↔ (t.fields = [] ∨ r.closed = false) ∧
      (r.positions t.fields).mapM (Field.readAt r) = .ok row.columns := by
  rw [mapRow]
  cases closed : r.closed with
  | true =>
    rw [mapFields_of_closed closed]
    by_cases none : t.fields = []
    · rw [if_pos none, none]
      show Except.ok Row.empty = .ok row ↔ _ ∧ Except.ok [] = .ok row.columns
      constructor
      · intro h
        obtain rfl := Except.ok.inj h
        exact ⟨.inl rfl, rfl⟩
      · rintro ⟨-, h⟩
        exact congrArg (fun cs => Except.ok (Row.mk cs)) (Except.ok.inj h)
    · rw [if_neg none]
      exact ⟨fun h => (nomatch h), fun h => (h.1.elim none fun h => (nomatch h)).elim⟩
  | false =>
    rw [mapFields_eq closed]
    constructor
    · intro h
      obtain ⟨cs, read, rfl⟩ := map_eq_ok.mp h
      exact ⟨.inr rfl, read⟩
    · rintro ⟨-, read⟩
      exact map_eq_ok.mpr ⟨row.columns, read, rfl⟩

theorem mapRow_eq_error {e : Failure} :
    t.mapRow r = .error e ↔ (r.closed = true ∧ t.fields ≠ [] ∧ e = .access .closed) ∨
      r.closed = false ∧ (r.positions t.fields).mapM (Field.readAt r) = .error e := by
  rw [mapRow]
  cases closed : r.closed with
  | true =>
    rw [mapFields_of_closed closed]
    by_cases none : t.fields = []
    · rw [if_pos none]
      simp [none]
    · rw [if_neg none]
      simp [none, eq_comm]
  | false =>
    rw [mapFields_eq closed]
    cases (r.positions t.fields).mapM (Field.readAt r) with
    | error e' => simp
    | ok cs => simp

section

variable {row : Row}

/-- The columns of a row are the known ones, in the order of the table. -/
theorem names_of_mapRow (mapped : t.mapRow r = .ok row) :
    row.columns.map (·.1) =
      (t.fields.filter fun f => r.columns.any fun c => sameName c f.column).map (·.column) := by
  rw [map_fst_of_readAt (mapRow_eq_ok.mp mapped).2, ← r.map_fst_positions, List.map_map]
  rfl

/-- No column of a row hides another one. -/
theorem distinct_of_mapRow (mapped : t.mapRow r = .ok row) :
    row.columns.Pairwise fun a b => sameName a.1 b.1 = false := by
  have fields : (t.fields.filter fun f => r.columns.any fun c => sameName c f.column).Pairwise
      fun f g => sameName f.column g.column = false :=
    (t.apart.imp fun apart => apart.column).filter _
  have columns : (row.columns.map (·.1)).Pairwise fun a b => sameName a b = false := by
    rw [names_of_mapRow mapped, List.pairwise_map]
    exact fields
  exact List.pairwise_map.mp columns

/-- What a field reads at its position is found in the row by its name. -/
theorem exists_read_of_mapRow (mapped : t.mapRow r = .ok row) {f : Field} (hf : f ∈ t.fields)
    {position : Nat} (first : r.FirstAt f.column position) :
    ∃ v, f.ofColumn r position = .ok v ∧
      ∀ name, sameName f.column name = true → row.get? name = some v := by
  obtain ⟨v, column, mem⟩ := exists_of_readAt (mapRow_eq_ok.mp mapped).2
    (Results.mem_positions (x := (f, position)) |>.mpr ⟨hf, first⟩)
  exact ⟨v, column, fun name same => Row.get?_of_mem (distinct_of_mapRow mapped) mem same⟩

end

/-- **A row of a table has the known columns of the results and no others.** They stand in the order
of the table under its names, each once, and a name in any letter case finds what its field reads at
the first result column of that name. Where this fails, it is because the results are closed, or as
the first field of the table that has a result column and cannot read it. -/
theorem mapRow_known_columns (t : Table) (r : Results) :
    (∀ row, t.mapRow r = .ok row →
      row.columns.map (·.1) =
        (t.fields.filter fun f => r.columns.any fun c => sameName c f.column).map (·.column) ∧
      (row.columns.Pairwise fun a b => sameName a.1 b.1 = false) ∧
      ∀ f ∈ t.fields, ∀ position, r.FirstAt f.column position →
        ∃ v, f.ofColumn r position = .ok v ∧
          ∀ name, sameName f.column name = true → row.get? name = some v) ∧
    ∀ e, t.mapRow r = .error e ↔
      (r.closed = true ∧ t.fields ≠ [] ∧ e = .access .closed) ∨
      r.closed = false ∧ ∃ before f after position, t.fields = before ++ f :: after ∧
        r.FirstAt f.column position ∧ f.ofColumn r position = .error e ∧
        ∀ g ∈ before, ∀ q, r.FirstAt g.column q → ∃ v, g.ofColumn r q = .ok v := by
  refine ⟨fun row mapped => ⟨names_of_mapRow mapped, distinct_of_mapRow mapped, ?_⟩, fun e => ?_⟩
  · intro f hf position first
    exact exists_read_of_mapRow mapped hf first
  · rw [mapRow_eq_error, mapM_readAt_eq_error]

/-- Of two columns of one name the first is read, in the order of the table and under its name. A
key that is no number is what fails, before the version that is none either. -/
theorem first_of_two_names_read : ∃ id name version t row,
    FieldDecl.toField { name := "id", type := .long, generatedId := true } .sqlite = .ok id ∧
    FieldDecl.toField { name := "name", type := .string } .sqlite = .ok name ∧
    FieldDecl.toField { name := "at", type := .integer, version := true } .sqlite = .ok version ∧
    make "account" [id, name, version] = .ok t ∧
    t.mapRow (.ofRow [("NAME", .text "a"), ("other", .null), ("Id", .long 7), ("name", .text "b")]) =
      .ok row ∧
    row.columns.map (·.1) = ["id", "name"] ∧ row.get? "Name" = some (.text "a") ∧
    t.mapRow (.ofRow [("at", .text "now"), ("id", .text "x")]) =
      .error (.access (.unreadableColumn 1 "text" "long")) := by
  obtain ⟨id, name, version, t, row, hid, hname, hversion, ht, hrow, hfields, hnames, hcolumn, hvalue,
      hkey, hfailed⟩ : ∃ id name version t row,
        FieldDecl.toField { name := "id", type := .long, generatedId := true } .sqlite = .ok id ∧
        FieldDecl.toField { name := "name", type := .string } .sqlite = .ok name ∧
        FieldDecl.toField { name := "at", type := .integer, version := true } .sqlite =
          .ok version ∧
        make "account" [id, name, version] = .ok t ∧
        t.mapRow
          (.ofRow [("NAME", .text "a"), ("other", .null), ("Id", .long 7), ("name", .text "b")]) =
            .ok row ∧
        t.fields = [id, name, version] ∧
        (t.fields.filter fun f => ["NAME", "other", "Id", "name"].any fun c =>
          sameName c f.column).map (·.column) = ["id", "name"] ∧
        name.column = "name" ∧
        name.ofColumn
          (.ofRow [("NAME", .text "a"), ("other", .null), ("Id", .long 7), ("name", .text "b")]) 0 =
            .ok (.text "a") ∧
        id.column = "id" ∧
        id.ofColumn (.ofRow [("at", .text "now"), ("id", .text "x")]) 1 =
          .error (.access (.unreadableColumn 1 "text" "long")) :=
    ⟨_, _, _, _, _, rfl, rfl, rfl, rfl, rfl, rfl, rfl, rfl, rfl, rfl, rfl⟩
  obtain ⟨columns, -, finds⟩ := (mapRow_known_columns t _).1 row hrow
  have memName : name ∈ t.fields := by simp [hfields]
  obtain ⟨v, read, found⟩ := finds name memName 0
    ⟨⟨"NAME", rfl, by rw [hcolumn]; rfl⟩, fun _ h => nomatch h⟩
  obtain rfl : v = .text "a" := Except.ok.inj (read.symm.trans hvalue)
  refine ⟨id, name, version, t, row, hid, hname, hversion, ht, hrow, columns.trans hnames,
    found "Name" (by rw [hcolumn]; rfl), ?_⟩
  refine ((mapRow_known_columns t _).2 _).mpr (.inr ⟨rfl, [], id, [name, version], 1, hfields, ?_,
    hfailed, fun _ h => nomatch h⟩)
  rw [hkey]
  exact ⟨⟨"id", rfl, rfl⟩, by decide⟩

end Table

end Relmap
