import Relmap.Proofs.Outcome
import Relmap.Table

/-!
# Columns, id and version of a table

The fields of a table are looked through once, each against the ones before it. They pass exactly if
every two of them are apart (`tableFault?_eq_none_iff`): their columns differ by more than letter
case, and they are neither both ids nor both versions. In a table made of such fields a column, the
id and the version are each found by the one field that has it, and by no other
(`Table.make_finds_each`).
-/

namespace Relmap

open Outcome (pure_eq_ok)
open Text (sameName sameName_iff)

/-! ### At most one -/

section

variable {α : Type} {p : α → Bool} {l : List α}

/-- At most one member has a property if no two members have it. -/
theorem countP_le_one_iff : l.countP p ≤ 1 ↔ l.Pairwise fun a b => ¬(p a = true ∧ p b = true) := by
  induction l with
  | nil => simp
  | cons a l ih =>
    rw [List.countP_cons, List.pairwise_cons]
    by_cases ha : p a = true
    · have hnone : l.countP p + 1 ≤ 1 ↔ ∀ b ∈ l, ¬p b = true := by
        rw [← List.countP_eq_zero]
        omega
      rw [if_pos ha, hnone]
      constructor
      · intro h
        refine ⟨fun b hb hboth => h b hb hboth.2, ih.mp ?_⟩
        rw [List.countP_eq_zero.mpr h]
        exact Nat.zero_le 1
      · rintro ⟨h, -⟩ b hb hpb
        exact h b hb ⟨ha, hpb⟩
    · simp [ha, ih]

/-- Of members of which at most one has a property, the first that has it is the only one. -/
theorem filter_eq_toList_find? (h : l.countP p ≤ 1) : l.filter p = (l.find? p).toList := by
  rw [List.countP_eq_length_filter] at h
  rw [← List.head?_filter]
  match hl : l.filter p with
  | [] => rfl
  | [a] => rfl
  | a :: b :: more => simp [hl] at h

end

/-! ### Fields of one table -/

/-- Two fields that can stand in one table. -/
structure Field.Apart (f g : Field) : Prop where
  column : sameName f.column g.column = false
  id : ¬(f.isId = true ∧ g.isId = true)
  version : ¬(f.version = true ∧ g.version = true)

/-- A field passes if it is apart from all before it. -/
theorem tableFault?_cons_eq_none_iff {table : String} {before rest : List Field} {f : Field} :
    tableFault? table before (f :: rest) = none ↔
      (∀ g ∈ before, g.Apart f) ∧ tableFault? table (f :: before) rest = none := by
  have hflag (p : Field → Bool) : (p f && before.any p) = false ↔
      ∀ g ∈ before, ¬(p g = true ∧ p f = true) := by
    cases p f <;> simp
  have happart : (∀ g ∈ before, g.Apart f) ↔
      (before.any fun g => sameName g.column f.column) = false ∧
        (f.isId && before.any (·.isId)) = false ∧
        (f.version && before.any (·.version)) = false := by
    rw [hflag (·.isId), hflag (·.version), List.any_eq_false]
    constructor
    · intro h
      exact ⟨fun g hg => Bool.eq_false_iff.mp (h g hg).column, fun g hg => (h g hg).id,
        fun g hg => (h g hg).version⟩
    · rintro ⟨hcolumn, hid, hversion⟩ g hg
      exact ⟨Bool.eq_false_iff.mpr (hcolumn g hg), hid g hg, hversion g hg⟩
  rw [happart, tableFault?]
  cases before.any fun g => sameName g.column f.column <;>
    cases f.isId && before.any (·.isId) <;>
      cases f.version && before.any (·.version) <;> simp

/-- **Fields pass exactly if every two of them are apart**, also from the ones looked at before. -/
theorem tableFault?_eq_none_iff {table : String} {before rest : List Field} :
    tableFault? table before rest = none ↔
      rest.Pairwise Field.Apart ∧ ∀ f ∈ rest, ∀ g ∈ before, g.Apart f := by
  induction rest generalizing before with
  | nil => simp [tableFault?]
  | cons f rest ih =>
    rw [tableFault?_cons_eq_none_iff, ih, List.pairwise_cons, List.forall_mem_cons]
    simp only [List.forall_mem_cons]
    constructor
    · rintro ⟨hf, hrest, hbefore⟩
      exact ⟨⟨fun g hg => (hbefore g hg).1, hrest⟩, hf, fun g hg => (hbefore g hg).2⟩
    · rintro ⟨⟨hfirst, hrest⟩, hf, hbefore⟩
      exact ⟨hf, hrest, fun g hg => ⟨hfirst g hg, hbefore g hg⟩⟩

namespace Table

variable {t : Table} {f : Field} {name column : String} {fields : List Field}

/-! ### Lookups -/

theorem field_eq_ok : t.field column = .ok f ↔ t.field? column = some f := by
  unfold field
  cases t.field? column with
  | none => exact ⟨fun h => (nomatch h), fun h => (nomatch h)⟩
  | some g => exact pure_eq_ok.trans Option.some_inj.symm

theorem exists_field_iff : (∃ f, t.field column = .ok f) ↔ t.hasColumn column = true := by
  rw [hasColumn, Option.isSome_iff_exists]
  exact exists_congr fun f => field_eq_ok

theorem hasColumn_of_field (h : t.field column = .ok f) : t.hasColumn column = true :=
  exists_field_iff.mp ⟨f, h⟩

theorem hasColumn_iff :
    t.hasColumn column = true ↔ ∃ f ∈ t.fields, sameName f.column column = true := by
  rw [hasColumn, field?, List.find?_isSome]

/-! ### Making a table -/

/-- A table is made of fields of which every two are apart. -/
theorem exists_make_iff :
    (∃ t, make name fields = .ok t) ↔ fields.Pairwise Field.Apart := by
  have hfine : tableFault? name [] fields = none ↔ fields.Pairwise Field.Apart := by
    simp [tableFault?_eq_none_iff]
  rw [← hfine]
  unfold make
  split
  · rename_i h
    exact ⟨fun _ => h, fun _ => ⟨_, rfl⟩⟩
  · rename_i cause h
    constructor
    · rintro ⟨t, ht⟩
      cases ht
    · intro hnone
      rw [h] at hnone
      cases hnone

theorem of_make (h : make name fields = .ok t) : t.name = name ∧ t.fields = fields := by
  unfold make at h
  split at h
  · cases h
    exact ⟨rfl, rfl⟩
  · cases h

/-- Of fields that are apart, at most one has a column. -/
theorem countP_column_le_one (h : fields.Pairwise Field.Apart) (column : String) :
    fields.countP (fun f => sameName f.column column) ≤ 1 := by
  refine countP_le_one_iff.mpr (h.imp fun {f g} hapart => ?_)
  rintro ⟨hf, hg⟩
  have hsame : sameName f.column g.column = true :=
    sameName_iff.mpr ((sameName_iff.mp hf).trans (sameName_iff.mp hg).symm)
  rw [hapart.column] at hsame
  cases hsame

/-- Fields are apart if their columns differ and at most one is an id and at most one a version. -/
theorem pairwise_apart_iff : fields.Pairwise Field.Apart ↔
    (fields.Pairwise fun f g => sameName f.column g.column = false) ∧
      fields.countP (·.isId) ≤ 1 ∧ fields.countP (·.version) ≤ 1 := by
  rw [countP_le_one_iff, countP_le_one_iff, ← List.pairwise_and_iff, ← List.pairwise_and_iff]
  constructor
  · intro h
    exact h.imp fun hapart => ⟨hapart.column, hapart.id, hapart.version⟩
  · intro h
    exact h.imp fun ⟨hcolumn, hid, hversion⟩ => ⟨hcolumn, hid, hversion⟩

/-- **A table finds each column, its id and its version by the one field that has it.** Fields make
a table exactly if their columns differ by more than letter case, at most one of them is an id and at
most one is a version. In that table a column is found exactly if a field has it, up to letter case,
and then it is the only such field; the id and the version are the only fields of their kind, and
missing where there is none. -/
theorem make_finds_each (name : String) (fields : List Field) :
    ((∃ t, make name fields = .ok t) ↔
      (fields.Pairwise fun f g => sameName f.column g.column = false) ∧
        fields.countP (·.isId) ≤ 1 ∧ fields.countP (·.version) ≤ 1) ∧
    ∀ t, make name fields = .ok t → t.name = name ∧ t.fields = fields ∧
      (∀ column f, t.field column = .ok f ↔
        fields.filter (fun g => sameName g.column column) = [f]) ∧
      (∀ column, (∃ f, t.field column = .ok f) ↔ ∃ f ∈ fields, sameName f.column column = true) ∧
      (∀ column, t.hasColumn column = true ↔ ∃ f ∈ fields, sameName f.column column = true) ∧
      t.idField?.toList = fields.filter (·.isId) ∧
      t.versionField?.toList = fields.filter (·.version) := by
  refine ⟨exists_make_iff.trans pairwise_apart_iff, fun t ht => ?_⟩
  have hapart := exists_make_iff.mp ⟨t, ht⟩
  obtain ⟨-, hid, hversion⟩ := pairwise_apart_iff.mp hapart
  obtain ⟨hname, hfields⟩ := of_make ht
  have hfound (column : String) : t.hasColumn column = true ↔
      ∃ f ∈ fields, sameName f.column column = true := by
    rw [hasColumn_iff, hfields]
  refine ⟨hname, hfields, fun column f => ?_, fun column => exists_field_iff.trans (hfound column),
    hfound, ?_, ?_⟩
  · rw [filter_eq_toList_find? (countP_column_le_one hapart column), Option.toList_eq_singleton_iff,
      ← hfields, ← field?]
    exact field_eq_ok
  · rw [filter_eq_toList_find? hid, idField?, hfields]
  · rw [filter_eq_toList_find? hversion, versionField?, hfields]

/-- A column is found in capitals, and the only version is told from the id. -/
theorem name_and_version_found : ∃ id name version t,
    FieldDecl.toField { name := "id", type := .long, generatedId := true } .sqlite = .ok id ∧
    FieldDecl.toField { name := "name", type := .string } .sqlite = .ok name ∧
    FieldDecl.toField { name := "at", type := .integer, version := true } .sqlite = .ok version ∧
    make "account" [id, name, version] = .ok t ∧ t.field "NAME" = .ok name ∧
    t.versionField?.toList = [version] := by
  obtain ⟨id, name, version, t, hid, hname, hversion, ht, hfound, honly⟩ :
      ∃ id name version t,
        FieldDecl.toField { name := "id", type := .long, generatedId := true } .sqlite = .ok id ∧
        FieldDecl.toField { name := "name", type := .string } .sqlite = .ok name ∧
        FieldDecl.toField { name := "at", type := .integer, version := true } .sqlite =
          .ok version ∧
        make "account" [id, name, version] = .ok t ∧
        [id, name, version].filter (fun g => sameName g.column "NAME") = [name] ∧
        [id, name, version].filter (·.version) = [version] :=
    ⟨_, _, _, _, rfl, rfl, rfl, rfl, rfl, rfl⟩
  obtain ⟨-, -, hfield, -, -, -, hkind⟩ :=
    (make_finds_each "account" [id, name, version]).2 t ht
  exact ⟨id, name, version, t, hid, hname, hversion, ht, (hfield "NAME" name).mpr hfound,
    hkind.trans honly⟩

end Table

end Relmap
