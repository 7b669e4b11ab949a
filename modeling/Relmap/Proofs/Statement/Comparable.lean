import Relmap.Proofs.Statement.Conservation
import Relmap.Proofs.Table

/-!
# Columns that are compared

A finished condition compares the columns that its tests name (`Test.compared`,
`Table.compared_clause`). A test checks that the values of its column can be compared, but for two
ways around: the column of a membership in a query is looked up only, and so is a column on the
right side of a comparison (`Test.unchecked`). A column that is compared although its values cannot
be is one of these, and each of these is compared (`Table.compared_iff`). This carries over from one
test to a whole run of calls, since no test is lost on the way (`Where.compared_run_iff`).
-/

namespace Relmap

open scoped List
open Outcome

/-! ### Compared and unchecked columns -/

/-- The column, if it is one of the table of the test. -/
def ColumnRef.own (c : ColumnRef) : List String := if c.table.isNone then [c.column] else []

/-- The columns of the table on the right side of a comparison. -/
def Rhs.columns : Rhs → List String
  | .column c => c.own
  | .argument _ => []

/-- The columns that a test without a query compares. -/
def Leaf.compared : Leaf → List String
  | .compare column _ rhs => column :: rhs.columns
  | .between column _ _ | .inList column _ _ _ => [column]
  | .null _ _ | .raw _ _ => []

/-- The columns that a condition compares at its root. -/
def Clause.comparedHere : Clause → List String
  | .leaf l => l.compared
  | .inQuery column _ _ => [column]
  | _ => []

/-- The columns that a condition compares, outside the queries in it. -/
def Clause.compared (c : Clause) : List String := c.leaves.flatMap Clause.comparedHere

/-- The columns of the table in an operand. -/
def Operand.columns : Operand → List String
  | .column c => c.own
  | _ => []

/-- The columns that a test on a table compares. -/
def Test.compared (t : Table) : Test → List String
  | .compare _ column o => column :: o.columns
  | .idEquals o => (t.idField?.map (·.column)).toList ++ o.columns
  | .between column _ _ | .inList column _ _ | .inQuery column _ _ | .compareRaw column _ _ =>
    [column]
  | .null _ _ | .nonempty _ _ | .raw _ _ => []

/-- The columns that a call on a table's condition compares. -/
def WhereCall.compared (t : Table) : WhereCall → List String
  | .test x => x.compared t
  | _ => []

/-- The columns that a test compares without a check. -/
def Test.unchecked : Test → List String
  | .compare _ _ o | .idEquals o => o.columns
  | .inQuery column _ _ | .compareRaw column _ _ => [column]
  | _ => []

/-- The columns that a call compares without a check. -/
def WhereCall.unchecked : WhereCall → List String
  | .test x => x.unchecked
  | _ => []

/-- The column belongs to a field whose values can be compared. -/
def Table.Comparable (t : Table) (column : String) : Prop :=
  ∃ f, t.field? column = some f ∧ f.converter.codec.isComparable = true

/-! ### One test -/

namespace Table

variable {t : Table} {x : Test} {c : Clause} {f : Field} {column : String}

/-- What is checked is comparable. -/
theorem comparable_of_eq_ok (h : t.comparable column = .ok f) : t.Comparable column := by
  obtain ⟨g, known, h⟩ := bind_eq_ok.mp h
  split at h
  next comparable => exact ⟨g, field_eq_ok.mp known, comparable⟩
  · cases h

/-- The right side has the columns of the operand, and they are known. -/
theorem columns_of_rhs {o : Operand} {r : Rhs} (h : t.rhs f o = .ok r) :
    r.columns = o.columns ∧ ∀ other ∈ o.columns, t.hasColumn other = true := by
  cases o with
  | value v | late v =>
    obtain ⟨a, -, h⟩ := bind_eq_ok.mp h
    rw [← pure_eq_ok.mp h]
    exact ⟨rfl, List.forall_mem_nil _⟩
  | column ref =>
    show r.columns = ref.own ∧ ∀ other ∈ ref.own, t.hasColumn other = true
    rw [rhs] at h
    by_cases own : ref.table.isNone = true
    · rw [if_pos own] at h
      obtain ⟨_, looked, h⟩ := bind_eq_ok.mp h
      obtain ⟨g, known, -⟩ := map_eq_ok.mp looked
      rw [← pure_eq_ok.mp h]
      refine ⟨rfl, fun other hother => ?_⟩
      rw [ColumnRef.own, if_pos own, List.mem_singleton] at hother
      rw [hother]
      exact hasColumn_of_field known
    · rw [if_neg own] at h
      rw [← pure_eq_ok.mp h, ColumnRef.own, if_neg own]
      exact ⟨if_neg own, List.forall_mem_nil _⟩

/-- A comparison checks its column and looks up the other one. -/
theorem compared_of_compare {op : CompareOp} {o : Operand} (h : t.compare op column o = .ok c) :
    c.compared = column :: o.columns ∧ t.Comparable column ∧
      ∀ other ∈ o.columns, t.hasColumn other = true := by
  obtain ⟨f, checked, h⟩ := bind_eq_ok.mp h
  obtain ⟨r, right, h⟩ := bind_eq_ok.mp h
  obtain ⟨columns, known⟩ := columns_of_rhs right
  rw [← pure_eq_ok.mp h]
  refine ⟨?_, comparable_of_eq_ok checked, known⟩
  simp [Clause.compared, Clause.compare, Clause.leaves, Clause.comparedHere, Leaf.compared, columns]

/-- The condition of a test compares the columns that the test names. -/
theorem compared_clause (h : t.clause x = .ok c) : c.compared = x.compared t := by
  cases x with
  | compare op column o => exact (compared_of_compare h).1
  | idEquals o =>
    rw [clause] at h
    split at h
    next f isId =>
      rw [(compared_of_compare h).1, Test.compared, isId]
      rfl
    · cases h
  | between _ _ _ | inList _ _ _ | inQuery _ _ _ | null _ _ | raw _ _ | compareRaw _ _ _ =>
    cases makes_of_clause h
    rfl
  | nonempty query negated => cases makes_of_clause h <;> rfl

/-- What a test compares is either checked or one of its unchecked columns, and it compares all of
these. -/
theorem compared_iff (h : t.clause x = .ok c) (column : String) :
    column ∈ x.compared t ∧ ¬t.Comparable column ↔
      column ∈ x.unchecked ∧ ¬t.Comparable column := by
  -- A column that is checked is none of those that are compared although they cannot be.
  have one {checked : String} {unchecked : List String} (ok : t.Comparable checked) :
      column ∈ checked :: unchecked ∧ ¬t.Comparable column ↔
        column ∈ unchecked ∧ ¬t.Comparable column := by
    constructor
    · rintro ⟨mem, bad⟩
      rcases List.mem_cons.mp mem with rfl | mem
      · exact absurd ok bad
      · exact ⟨mem, bad⟩
    · rintro ⟨mem, bad⟩
      exact ⟨List.mem_cons_of_mem _ mem, bad⟩
  cases x with
  | compare op checked o => exact one (compared_of_compare h).2.1
  | idEquals o =>
    rw [clause] at h
    split at h
    next f isId =>
      rw [Test.compared, isId]
      exact one (compared_of_compare h).2.1
    · cases h
  | between checked _ _ | inList checked _ _ =>
    obtain ⟨f, ok, -⟩ := bind_eq_ok.mp h
    exact one (comparable_of_eq_ok ok)
  | inQuery _ _ _ | null _ _ | nonempty _ _ | raw _ _ | compareRaw _ _ _ => rfl

/-- What is compared without a check is looked up at least, but for a comparison in SQL. -/
theorem known_of_unchecked (h : t.clause x = .ok c) (plain : ∀ a b v, x ≠ .compareRaw a b v) :
    ∀ column ∈ x.unchecked, t.hasColumn column = true := by
  cases x with
  | compare op checked o => exact (compared_of_compare h).2.2
  | idEquals o =>
    rw [clause] at h
    split at h
    · exact (compared_of_compare h).2.2
    · cases h
  | inQuery unchecked query negated =>
    obtain ⟨_, looked, -⟩ := bind_eq_ok.mp h
    obtain ⟨g, known, -⟩ := map_eq_ok.mp looked
    intro column hcolumn
    cases List.mem_singleton.mp hcolumn
    exact hasColumn_of_field known
  | compareRaw a b v => exact absurd rfl (plain a b v)
  | between _ _ _ | inList _ _ _ | null _ _ | nonempty _ _ | raw _ _ => exact List.forall_mem_nil _

end Table

/-! ### Runs of calls -/

namespace Where

variable {w : Where} {dialect : Dialect} {t : Table} {calls : List WhereCall} {c : Clause}

/-- Every test of a run in which nothing went wrong has a condition. -/
theorem exists_clause_of_mem_run {x : Test} (h : (w.run calls).fault = none)
    (hx : .test x ∈ calls) : ∃ c, w.table.clause x = .ok c := by
  induction calls generalizing w with
  | nil => cases hx
  | cons call rest ih =>
    rcases List.mem_cons.mp hx with rfl | hx
    · have none := failure?_eq_none_of_run h
      rw [failure?] at none
      split at none
      next c made => exact ⟨c, made⟩
      · cases none
    · rw [← (step_apply w call).table]
      exact ih h hx

/-- The finished condition compares the columns that its calls compare. -/
theorem mem_compared_clause_run (h : (run { dialect := dialect, table := t } calls).clause = .ok c)
    (column : String) :
    column ∈ c.compared ↔ column ∈ calls.flatMap (WhereCall.compared t) := by
  have kept := leaves_clause_run h
  have each {call : WhereCall} (hcall : call ∈ calls) :
      (call.leaves t).flatMap Clause.comparedHere = call.compared t := by
    cases call with
    | test x =>
      obtain ⟨cx, made⟩ := exists_clause_of_mem_run (of_clause_eq_ok h).1 hcall
      rw [WhereCall.leaves, made, WhereCall.compared, ← Table.compared_clause made]
      rfl
    | connect _ | not | combine _ _ => rfl
  rw [Clause.compared, (kept.flatMap_right _).mem_iff, List.flatMap_assoc]
  simp only [List.mem_flatMap]
  constructor
  · rintro ⟨call, hcall, hcolumn⟩
    exact ⟨call, hcall, each hcall ▸ List.mem_flatMap.mpr hcolumn⟩
  · rintro ⟨call, hcall, hcolumn⟩
    rw [← each hcall] at hcolumn
    exact ⟨call, hcall, List.mem_flatMap.mp hcolumn⟩

/-- **Which columns are compared although their values cannot be.** If a condition is written, it is
the finished condition of its calls and compares the columns that their tests name. Of these the
ones that are not comparable are those that the calls do not check: the column of a membership in a
query, a column of the table on the right side of a comparison, and the column of a comparison in
SQL. All but the last are looked up. -/
theorem compared_run_iff {q : Option String} {draft out : Draft}
    (h : (run { dialect := dialect, table := t } calls).render q draft = .ok out) :
    ∃ c : Clause, (run { dialect := dialect, table := t } calls).clause = .ok c ∧
      c.render dialect q draft = .ok out ∧
      (∀ column, column ∈ c.compared ↔ column ∈ calls.flatMap (WhereCall.compared t)) ∧
      (∀ column, column ∈ c.compared ∧ ¬t.Comparable column ↔
        column ∈ calls.flatMap WhereCall.unchecked ∧ ¬t.Comparable column) ∧
      ∀ x, WhereCall.test x ∈ calls → (∀ a b v, x ≠ .compareRaw a b v) →
        ∀ column ∈ x.unchecked, t.hasColumn column = true := by
  obtain ⟨c, finished, written⟩ := bind_eq_ok.mp h
  rw [dialect_run] at written
  -- A condition is finished only if no call failed, and so every test made its condition.
  have tests {x : Test} (hx : WhereCall.test x ∈ calls) : ∃ cx, t.clause x = .ok cx :=
    exists_clause_of_mem_run (of_clause_eq_ok finished).1 hx
  have compared := mem_compared_clause_run finished
  refine ⟨c, finished, written, compared, fun column => ?_, fun x hx plain => ?_⟩
  · have each {call : WhereCall} (hcall : call ∈ calls) :
        column ∈ call.compared t ∧ ¬t.Comparable column ↔
          column ∈ call.unchecked ∧ ¬t.Comparable column := by
      cases call with
      | test x =>
        obtain ⟨cx, made⟩ := tests hcall
        exact Table.compared_iff made column
      | connect _ | not | combine _ _ => rfl
    rw [compared, List.mem_flatMap, List.mem_flatMap]
    constructor
    · rintro ⟨⟨call, hcall, named⟩, bad⟩
      exact ⟨⟨call, hcall, ((each hcall).mp ⟨named, bad⟩).1⟩, bad⟩
    · rintro ⟨⟨call, hcall, unchecked⟩, bad⟩
      exact ⟨⟨call, hcall, ((each hcall).mpr ⟨unchecked, bad⟩).1⟩, bad⟩
  · obtain ⟨cx, made⟩ := tests hx
    exact Table.known_of_unchecked made plain

/-- Two tests against values compare only what can be compared, and they compare both columns. -/
theorem name_and_id_comparable : ∃ t out, ∃ c : Clause,
    TableDecl.toTable ⟨"person", [{ name := "id", type := .long },
      { name := "name", type := .string }, { name := "photo", type := .byteArray }]⟩ .sqlite =
        .ok t ∧
    (run { dialect := .sqlite, table := t }
      [.test (.compare .eq "name" (.value (.text "a"))), .connect .or,
        .test (.between "id" (.value (.int 1)) (.late none))]).render none {} = .ok out ∧
    (run { dialect := .sqlite, table := t }
      [.test (.compare .eq "name" (.value (.text "a"))), .connect .or,
        .test (.between "id" (.value (.int 1)) (.late none))]).clause = .ok c ∧
    c.render .sqlite none {} = .ok out ∧ (∀ column, column ∈ c.compared ↔ column ∈ ["name", "id"]) ∧
    ∀ column ∈ c.compared, t.Comparable column := by
  obtain ⟨t, out, table, written⟩ : ∃ t out, TableDecl.toTable ⟨"person",
        [{ name := "id", type := .long }, { name := "name", type := .string },
          { name := "photo", type := .byteArray }]⟩ .sqlite = .ok t ∧
      (run { dialect := .sqlite, table := t }
        [.test (.compare .eq "name" (.value (.text "a"))), .connect .or,
          .test (.between "id" (.value (.int 1)) (.late none))]).render none {} = .ok out :=
    ⟨_, _, rfl, rfl⟩
  obtain ⟨c, finished, hc, compared, incomparable, -⟩ := compared_run_iff written
  refine ⟨t, out, c, table, written, finished, hc, compared, fun column hcolumn => ?_⟩
  by_contra bad
  cases ((incomparable column).mp ⟨hcolumn, bad⟩).1

/-- Octets cannot be compared, yet a membership in a query and a right side compare them. -/
theorem photo_compared : ∃ t c c',
    TableDecl.toTable ⟨"person", [{ name := "name", type := .string },
      { name := "photo", type := .byteArray }]⟩ .sqlite = .ok t ∧
    ¬t.Comparable "photo" ∧
    (run { dialect := .sqlite, table := t }
      [.test (.inQuery "photo" (.given (.ok ("SELECT x FROM bar", [])) 1) false)]).clause =
        .ok c ∧
    c.render .sqlite none {} = .ok ⟨"\"photo\" IN (SELECT x FROM bar) ", []⟩ ∧
    "photo" ∈ c.compared ∧
    (run { dialect := .sqlite, table := t }
      [.test (.compare .eq "name" (.column { column := "photo" }))]).clause = .ok c' ∧
    c'.render .sqlite none {} = .ok ⟨"\"name\" = \"photo\" ", []⟩ ∧ "photo" ∈ c'.compared := by
  refine ⟨_, _, _, rfl, ?_, rfl, rfl, List.mem_singleton_self _, rfl, rfl, ?_⟩
  · rintro ⟨f, found, comparable⟩
    cases found
    cases comparable
  · exact List.mem_cons_of_mem _ (List.mem_singleton_self _)

end Where

end Relmap
