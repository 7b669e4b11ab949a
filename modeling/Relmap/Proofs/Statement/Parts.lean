import Relmap.Proofs.Statement.Script

/-!
# Calls on different parts of a query

Every call on a query is about one part of it (`SelectCall.part`). It changes no other part
(`Select.part_apply_of_ne`), and what it makes of its own depends on that part alone
(`Select.part_apply_congr`). So a part after a run of calls is what the calls about it make of it,
in their order, whatever is called between them (`Select.part_run_filter`). What goes wrong in a
call depends on the table only, and so whether anything does depends on no order
(`Select.fault_run_eq`).

The main statement is `Select.prepare_of_same_parts`.
-/

namespace Relmap

open Outcome (cause?)

/-! ### Parts -/

/-- The parts of a query, each with calls of its own. -/
inductive SelectPart
  | columns
  | distinct
  | count
  | condition
  | groupBy
  | having
  | orderBy
  | limit
  | offset
  | qualification
  deriving DecidableEq

/-- What a part of a query holds. -/
def SelectPart.Content : SelectPart → Type
  | .columns | .groupBy => List String
  | .distinct | .qualification => Bool
  | .count | .having => Option String
  | .condition => Option Where
  | .orderBy => List SortKey
  | .limit | .offset => Option Nat

/-- The part of a query that a call is about. -/
def SelectCall.part : SelectCall → SelectPart
  | .columns _ => .columns
  | .distinct => .distinct
  | .count _ => .count
  | .startWhere | .restrict _ | .setWhere _ => .condition
  | .groupBy _ => .groupBy
  | .having _ => .having
  | .orderBy _ _ | .orderByExpression _ => .orderBy
  | .limit _ => .limit
  | .offset _ => .offset
  | .qualifyColumns _ => .qualification

/-- What goes wrong in a call on a query over a table: a column is not known. -/
def SelectCall.failure? (t : Table) : SelectCall → Option Failure
  | .columns names => names.findSome? fun name => cause? (t.field name)
  | .groupBy column | .orderBy column _ => cause? (t.field column)
  | _ => none

namespace Select

/-- A part of a query. -/
def part (s : Select) : (k : SelectPart) → k.Content
  | .columns => s.shape.columns
  | .distinct => s.shape.distinct
  | .count => s.shape.count
  | .condition => s.condition
  | .groupBy => s.shape.groupBy
  | .having => s.shape.having
  | .orderBy => s.shape.orderBy
  | .limit => s.shape.limit
  | .offset => s.shape.offset
  | .qualification => s.shape.qualified

variable {s s' : Select} {call : SelectCall} {calls calls' : List SelectCall} {k : SelectPart}

/-- A query is its parts, besides its dialect, its table and its failure. -/
theorem eq_of_parts (hframe : SameFrame s.shape s'.shape)
    (hfault : s.shape.fault = s'.shape.fault) (hparts : ∀ k, s.part k = s'.part k) : s = s' := by
  obtain ⟨⟨d, t, columns, distinct, count, groupBy, having, orderBy, limit, offset, qualified, fault⟩,
    condition⟩ := s
  obtain ⟨⟨d', t', columns', distinct', count', groupBy', having', orderBy', limit', offset',
    qualified', fault'⟩, condition'⟩ := s'
  obtain ⟨rfl, rfl⟩ : d' = d ∧ t' = t := hframe
  obtain rfl : fault = fault' := hfault
  obtain rfl : columns = columns' := hparts .columns
  obtain rfl : distinct = distinct' := hparts .distinct
  obtain rfl : count = count' := hparts .count
  obtain rfl : condition = condition' := hparts .condition
  obtain rfl : groupBy = groupBy' := hparts .groupBy
  obtain rfl : having = having' := hparts .having
  obtain rfl : orderBy = orderBy' := hparts .orderBy
  obtain rfl : limit = limit' := hparts .limit
  obtain rfl : offset = offset' := hparts .offset
  obtain rfl : qualified = qualified' := hparts .qualification
  rfl

/-! ### What a call does -/

/-- Naming columns selects the known ones, as the table declares them, and keeps the first
failure. -/
theorem addColumns_eq (s : SelectShape) (names : List String) :
    names.foldl addColumn s =
      { s with
        columns := s.columns ++ names.filterMap fun name =>
          (s.table.field name).toOption.map (·.column)
        fault := s.fault <|> names.findSome? fun name => cause? (s.table.field name) } := by
  induction names generalizing s with
  | nil => simp
  | cons name rest ih =>
    rw [List.foldl_cons, ih, addColumn, withField]
    cases h : s.table.field name with
    | ok f => simp [h, cause?, Except.toOption]
    | error e => simp [h, cause?, Except.toOption]

/-- A change by a column that is not known is a failure, and nothing else. -/
theorem fault_withField {s : SelectShape} {column : String} {change : String → SelectShape}
    (h : ∀ name, (change name).fault = s.fault) :
    (withField s column change).fault = (s.fault <|> cause? (s.table.field column)) := by
  unfold withField
  cases s.table.field column with
  | ok f => rw [h]; simp [cause?]
  | error e => rfl

/-- **The first failure is kept**, and what fails depends on the table alone. -/
theorem fault_apply (s : Select) (call : SelectCall) :
    (s.apply call).shape.fault = (s.shape.fault <|> call.failure? s.shape.table) := by
  cases call with
  | columns names => simp only [apply, addColumns_eq, SelectCall.failure?]
  | groupBy column => exact fault_withField fun _ => rfl
  | orderBy column ascending => exact fault_withField fun _ => rfl
  | _ => simp [apply, SelectCall.failure?]

/-- A call leaves the other parts as they are. -/
theorem part_apply_of_ne (s : Select) (h : call.part ≠ k) : (s.apply call).part k = s.part k := by
  cases call with
  | columns names =>
    simp only [apply, addColumns_eq]
    cases k with
    | columns => exact absurd rfl h
    | _ => rfl
  | groupBy column =>
    simp only [apply, withField]
    cases k with
    | groupBy => exact absurd rfl h
    | _ => split <;> rfl
  | orderBy column ascending =>
    simp only [apply, withField]
    cases k with
    | orderBy => exact absurd rfl h
    | _ => split <;> rfl
  | _ =>
    cases k <;> first | rfl | exact absurd rfl h

theorem startedWhere_congr (hframe : SameFrame s.shape s'.shape)
    (h : s.condition = s'.condition) : s.startedWhere = s'.startedWhere := by
  rw [startedWhere, startedWhere, hframe.1, hframe.2, h]

/-- What a call makes of its part depends on that part alone. -/
theorem part_apply_self (hframe : SameFrame s.shape s'.shape) (call : SelectCall)
    (h : s.part call.part = s'.part call.part) :
    (s.apply call).part call.part = (s'.apply call).part call.part := by
  have htable := hframe.2
  cases call with
  | distinct | count | setWhere | having | limit | offset | qualifyColumns => rfl
  | columns names =>
    have hcolumns : s.shape.columns = s'.shape.columns := h
    simp only [SelectCall.part, part, apply, addColumns_eq, htable, hcolumns]
    rfl
  | startWhere => exact congrArg some (startedWhere_congr hframe h)
  | restrict call => exact congrArg (fun w => some (w.apply call)) (startedWhere_congr hframe h)
  | groupBy column =>
    have hgroups : s.shape.groupBy = s'.shape.groupBy := h
    simp only [SelectCall.part, part, apply, withField, htable]
    split
    · exact congrArg (· ++ _) hgroups
    · exact hgroups
  | orderBy column ascending =>
    have horder : s.shape.orderBy = s'.shape.orderBy := h
    simp only [SelectCall.part, part, apply, withField, htable]
    split
    · exact congrArg (· ++ _) horder
    · exact horder
  | orderByExpression expression =>
    have horder : s.shape.orderBy = s'.shape.orderBy := h
    exact congrArg (· ++ [SortKey.expression expression]) horder

/-- Queries that are equal in a part stay so under the same call. -/
theorem part_apply_congr (hframe : SameFrame s.shape s'.shape) (h : s.part k = s'.part k)
    (call : SelectCall) : (s.apply call).part k = (s'.apply call).part k := by
  by_cases hpart : call.part = k
  · subst hpart
    exact part_apply_self hframe call h
  · rw [part_apply_of_ne s hpart, part_apply_of_ne s' hpart, h]

/-! ### What a run of calls does -/

/-- Queries that are equal in a part stay so under the same calls. -/
theorem part_run_congr (hframe : SameFrame s.shape s'.shape) (h : s.part k = s'.part k)
    (calls : List SelectCall) : (s.run calls).part k = (s'.run calls).part k := by
  induction calls generalizing s s' with
  | nil => exact h
  | cons call rest ih =>
    have hs := apply_frame s call
    have hs' := apply_frame s' call
    refine ih ⟨?_, ?_⟩ (part_apply_congr hframe h call)
    · rw [hs.1, hs'.1, hframe.1]
    · rw [hs.2, hs'.2, hframe.2]

/-- **A part is what the calls about it make of it**, whatever is called between them. -/
theorem part_run_filter (s : Select) (calls : List SelectCall) (k : SelectPart) :
    (s.run calls).part k = (s.run (calls.filter (·.part = k))).part k := by
  induction calls generalizing s with
  | nil => rfl
  | cons call rest ih =>
    rw [run_cons]
    by_cases hpart : call.part = k
    · rw [List.filter_cons_of_pos (by simpa using hpart), run_cons]
      exact ih _
    · -- A call about another part can be left out, whatever it changes there.
      rw [List.filter_cons_of_neg (by simpa using hpart)]
      calc ((s.apply call).run rest).part k
          = (s.run rest).part k :=
            part_run_congr ⟨(apply_frame s call).1.symm, (apply_frame s call).2.symm⟩
              (part_apply_of_ne s hpart) rest
        _ = (s.run (rest.filter (·.part = k))).part k := ih s

/-- The failure of a query is the first of its calls' failures. -/
theorem fault_run_eq (s : Select) (calls : List SelectCall) :
    (s.run calls).shape.fault =
      (s.shape.fault <|> calls.findSome? (·.failure? s.shape.table)) := by
  induction calls generalizing s with
  | nil => simp [run]
  | cons call rest ih =>
    rw [run_cons, ih, fault_apply, (apply_frame s call).2]
    cases s.shape.fault <;> cases h : call.failure? s.shape.table <;> simp [h]

/-! ### Calls in another order -/

/-- The calls on each part are the same, in the same order. -/
def SameParts (calls calls' : List SelectCall) : Prop :=
  ∀ k : SelectPart, calls.filter (·.part = k) = calls'.filter (·.part = k)

theorem SameParts.symm (h : SameParts calls calls') : SameParts calls' calls := fun k => (h k).symm

/-- The same calls are made, in whatever order. -/
theorem SameParts.mem_iff (h : SameParts calls calls') : call ∈ calls ↔ call ∈ calls' := by
  have hmem (l : List SelectCall) : call ∈ l ↔ call ∈ l.filter (·.part = call.part) := by
    simp [List.mem_filter]
  rw [hmem calls, hmem calls', h call.part]

/-- Nothing goes wrong in one order if nothing does in the other. -/
theorem SameParts.fault_eq_none (h : SameParts calls calls') (s : Select)
    (hfine : (s.run calls).shape.fault = none) : (s.run calls').shape.fault = none := by
  simp only [fault_run_eq, Option.orElse_eq_orElse, Option.orElse_eq_or, Option.or_eq_none_iff,
    List.findSome?_eq_none_iff] at hfine ⊢
  exact ⟨hfine.1, fun call hcall => hfine.2 call (h.mem_iff.mpr hcall)⟩

theorem SameParts.part_run_eq (h : SameParts calls calls') (s : Select) (k : SelectPart) :
    (s.run calls).part k = (s.run calls').part k := by
  rw [part_run_filter s calls, part_run_filter s calls', h k]

/-- If nothing goes wrong, the query is the same. -/
theorem SameParts.run_eq (h : SameParts calls calls') (s : Select)
    (hfine : (s.run calls).shape.fault = none) : s.run calls = s.run calls' := by
  have hframe := run_frame s calls
  have hframe' := run_frame s calls'
  refine eq_of_parts ⟨?_, ?_⟩ ?_ (h.part_run_eq s)
  · rw [hframe.1, hframe'.1]
  · rw [hframe.2, hframe'.2]
  · rw [hfine, h.fault_eq_none s hfine]

/-- A query in which something went wrong is not written. -/
theorem fault_eq_none_of_prepare {p : Prepared} (h : s.prepare = .ok p) : s.shape.fault = none := by
  obtain ⟨draft, hrender, -⟩ := Outcome.bind_eq_ok.mp h
  unfold render SelectShape.render at hrender
  split at hrender
  · cases hrender
  · assumption

/-- The number of columns is the same, whether or not anything goes wrong. -/
theorem SameParts.width_eq (h : SameParts calls calls') (s : Select) :
    (s.run calls).subQuery.width = (s.run calls').subQuery.width := by
  have hcolumns : (s.run calls).shape.columns = (s.run calls').shape.columns :=
    h.part_run_eq s .columns
  have hcount : (s.run calls).shape.count = (s.run calls').shape.count := h.part_run_eq s .count
  simp only [subQuery, SubQuery.width, SelectShape.width, hcolumns, hcount, (run_frame s calls).2,
    (run_frame s calls').2]

/-- **The order of calls on different parts does not matter.** Let two scripts of calls on a table
make the same calls on each part, in the same order. If one is prepared, so is the other, with the
same SQL, kind and arguments, and both select the same number of columns. -/
theorem prepare_of_same_parts (d : Dialect) (t : Table) (h : SameParts calls calls') :
    (∀ p, ((Select.new d t).run calls).prepare = .ok p ↔
      ((Select.new d t).run calls').prepare = .ok p) ∧
    ((Select.new d t).run calls).subQuery.width = ((Select.new d t).run calls').subQuery.width := by
  have hprepare {l l' : List SelectCall} (hl : SameParts l l') (p : Prepared)
      (hok : ((Select.new d t).run l).prepare = .ok p) :
      ((Select.new d t).run l').prepare = .ok p := by
    rw [← hl.run_eq _ (fault_eq_none_of_prepare hok), hok]
  exact ⟨fun p => ⟨hprepare h p, hprepare h.symm p⟩, h.width_eq _⟩

/-- Calls on the condition, the sorting and the window, interleaved in two ways. -/
theorem sorted_within_a_condition : ∃ t p,
    TableDecl.toTable ⟨"person", [{ name := "id", type := .long },
      { name := "name", type := .string }]⟩ .sqlite = .ok t ∧
    SameParts
      [.columns ["NAME"], .restrict (.test (.null "name" true)), .restrict (.connect .and),
        .orderBy "Name" false, .restrict (.test (.compareRaw "id" "<" (.long 7))),
        .orderByExpression "1", .limit 3]
      [.limit 3, .restrict (.test (.null "name" true)), .orderBy "Name" false,
        .orderByExpression "1", .restrict (.connect .and),
        .restrict (.test (.compareRaw "id" "<" (.long 7))), .columns ["NAME"]] ∧
    ((Select.new .sqlite t).run
      [.columns ["NAME"], .restrict (.test (.null "name" true)), .restrict (.connect .and),
        .orderBy "Name" false, .restrict (.test (.compareRaw "id" "<" (.long 7))),
        .orderByExpression "1", .limit 3]).prepare = .ok p ∧
    ((Select.new .sqlite t).run
      [.limit 3, .restrict (.test (.null "name" true)), .orderBy "Name" false,
        .orderByExpression "1", .restrict (.connect .and),
        .restrict (.test (.compareRaw "id" "<" (.long 7))), .columns ["NAME"]]).prepare = .ok p ∧
    p.sql = "SELECT \"name\" FROM \"person\" WHERE \"name\" IS NOT NULL AND \"id\" < ? " ++
      "ORDER BY \"name\" DESC, 1 LIMIT 3" := by
  have hsame : SameParts
      [.columns ["NAME"], .restrict (.test (.null "name" true)), .restrict (.connect .and),
        .orderBy "Name" false, .restrict (.test (.compareRaw "id" "<" (.long 7))),
        .orderByExpression "1", .limit 3]
      [.limit 3, .restrict (.test (.null "name" true)), .orderBy "Name" false,
        .orderByExpression "1", .restrict (.connect .and),
        .restrict (.test (.compareRaw "id" "<" (.long 7))), .columns ["NAME"]] :=
    fun k => by cases k <;> rfl
  exact ⟨_, _, rfl, hsame, rfl, ((prepare_of_same_parts .sqlite _ hsame).1 _).mp rfl,
    by decide +kernel⟩

end Select

end Relmap
