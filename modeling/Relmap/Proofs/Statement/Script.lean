import Relmap.Proofs.Statement.Numbering
import Relmap.Proofs.Statement.Run
import Relmap.Statement.Change

/-!
# Scripts of statements

A script is the calls that put a statement together, for a query, an UPDATE or a DELETE. What comes
of it is fixed by its template (`Script.prepare_eq_template`): its opening, which holds what an
UPDATE assigns, the condition, and a closing, which only a query has (`Script.template_eq_parts`).
Its condition is what the calls on the condition make of an empty one, whatever other calls stand
between them (`Script.condition_eq_run`).
-/

namespace Relmap

open Draft (Writes write_eq_fill ask_eq_fill fill_append)
open Template (ofText ofArgument)

/-! ### Templates of changes -/

/-- The template of an assignment. -/
def Assignment.template (d : Dialect) (column : String) (a : Assignment) : Template :=
  ofText (d.quotedName column ++ " = ") ++
    match a with
    | .value v => ofArgument d v
    | .expression sql => ofText sql

/-- The arguments of assignments. -/
def Assignment.arguments (assignments : List (String × Assignment)) : List Argument :=
  assignments.filterMap fun
    | (_, .value v) => some v
    | (_, .expression _) => none

namespace Update

/-- The template of something and further assignments. -/
def assignedTemplate (d : Dialect) (left : Template) : List (String × Assignment) → Template
  | [] => left
  | a :: rest => assignedTemplate d (left ++ (ofText ", " ++ a.2.template d a.1)) rest

/-- The template up to the condition, of a first assignment and further ones. -/
def opening (u : Update) (first : String × Assignment) (rest : List (String × Assignment)) :
    Template :=
  assignedTemplate u.dialect
      (ofText ("UPDATE " ++ u.dialect.quotedName u.table.name ++ " SET ") ++
        first.2.template u.dialect first.1)
      rest ++
    ofText " "

/-- The template of an UPDATE, with the blanks at its end. -/
def wholeTemplate (u : Update) : Except Failure Template :=
  match u.fault, u.assignments with
  | some e, _ => .error e
  | none, [] => .error (.statement (.noAssignments u.table.name))
  | none, a :: rest => (Condition.template none (.ofWhere? u.condition)).map (u.opening a rest ++ ·)

theorem renderAssignment_eq_fill (d : Dialect) (draft : Draft) (a : String × Assignment) :
    renderAssignment d draft a = draft.fill (a.2.template d a.1) := by
  obtain ⟨column, v | sql⟩ := a
  · simp only [renderAssignment, Assignment.template, fill_append, write_eq_fill, ask_eq_fill]
  · simp only [renderAssignment, Assignment.template, fill_append, write_eq_fill]

theorem renderMore_eq_fill (d : Dialect) (assignments : List (String × Assignment)) (draft : Draft)
    (left : Template) :
    renderMore d (draft.fill left) assignments =
      draft.fill (assignedTemplate d left assignments) := by
  induction assignments generalizing left with
  | nil => rfl
  | cons a rest ih =>
    rw [renderMore, write_eq_fill, renderAssignment_eq_fill, ← fill_append, ← fill_append, ih,
      assignedTemplate]

theorem args_assignedTemplate (d : Dialect) (left : Template)
    (assignments : List (String × Assignment)) :
    (assignedTemplate d left assignments).args = left.args ++ Assignment.arguments assignments := by
  induction assignments generalizing left with
  | nil => simp [assignedTemplate, Assignment.arguments]
  | cons a rest ih =>
    rw [assignedTemplate, ih]
    obtain ⟨column, v | sql⟩ := a <;> simp [Assignment.template, Assignment.arguments]

theorem args_opening (u : Update) (first : String × Assignment)
    (rest : List (String × Assignment)) :
    (u.opening first rest).args = Assignment.arguments (first :: rest) := by
  rw [opening, Template.args_append, args_assignedTemplate]
  obtain ⟨column, v | sql⟩ := first <;> simp [Assignment.template, Assignment.arguments]

theorem render_eq_fill (u : Update) : u.render = u.wholeTemplate.map (Draft.fill {}) := by
  unfold render wholeTemplate
  cases u.fault with
  | some e => rfl
  | none =>
    cases u.assignments with
    | nil => rfl
    | cons a rest =>
      have hcondition := Condition.writes_template none (.ofWhere? u.condition)
      simp only [write_eq_fill, renderAssignment_eq_fill, ← fill_append, renderMore_eq_fill]
      rw [hcondition, Outcome.map_map]
      simp only [opening, fill_append]

end Update

namespace Delete

/-- The template up to the condition. -/
def opening (s : Delete) : Template :=
  ofText ("DELETE FROM " ++ s.dialect.quotedName s.table.name ++ " ")

/-- The template of a DELETE, with the blanks at its end. -/
def wholeTemplate (s : Delete) : Except Failure Template :=
  (Condition.template none (.ofWhere? s.condition)).map (s.opening ++ ·)

theorem render_eq_fill (s : Delete) : s.render = s.wholeTemplate.map (Draft.fill {}) := by
  have hcondition := Condition.writes_template none (.ofWhere? s.condition)
  rw [render, hcondition, wholeTemplate, Outcome.map_map]
  simp only [opening, write_eq_fill, fill_append]

end Delete

/-! ### Scripts -/

/-- The calls that put a statement together. -/
inductive Script
  | select (calls : List SelectCall)
  | update (calls : List UpdateCall)
  | delete (calls : List DeleteCall)

/-- The calls on the condition that a call stands for, if it is one on the condition. -/
def SelectCall.whereCalls? : SelectCall → Option (List WhereCall)
  | .startWhere => some []
  | .restrict call => some [call]
  | _ => none

/-- The calls on the condition that a call stands for, if it is one on the condition. -/
def UpdateCall.whereCalls? : UpdateCall → Option (List WhereCall)
  | .startWhere => some []
  | .restrict call => some [call]
  | _ => none

/-- The calls on the condition that a call stands for. -/
def DeleteCall.whereCalls : DeleteCall → List WhereCall
  | .startWhere => []
  | .restrict call => [call]

namespace Script

variable (d : Dialect) (t : Table)

/-- The query, UPDATE or DELETE after the calls, prepared. -/
def prepare : Script → Except Failure Prepared
  | .select calls => ((Select.new d t).run calls).prepare
  | .update calls => (Update.run { dialect := d, table := t } calls).prepare
  | .delete calls => (Delete.run { dialect := d, table := t } calls).prepare

/-- The template of the statement after the calls. -/
def template : Script → Except Failure Template
  | .select calls => ((Select.new d t).run calls).subQuery.template
  | .update calls =>
    (Update.run { dialect := d, table := t } calls).wholeTemplate.map Template.trimmed
  | .delete calls =>
    (Delete.run { dialect := d, table := t } calls).wholeTemplate.map Template.trimmed

/-- What the statement does. -/
def kind : Script → StatementKind
  | .select calls => ((Select.new d t).run calls).kind
  | .update _ => .update
  | .delete _ => .delete

/-- The condition after the calls. -/
def condition : Script → Option Where
  | .select calls => ((Select.new d t).run calls).condition
  | .update calls => (Update.run { dialect := d, table := t } calls).condition
  | .delete calls => (Delete.run { dialect := d, table := t } calls).condition

/-- What the columns are set to. -/
def assigned : Script → List Argument
  | .update calls =>
    Assignment.arguments (Update.run { dialect := d, table := t } calls).assignments
  | _ => []

/-- What stands before the condition. -/
def opening : Script → Template
  | .select calls => ofText ((Select.new d t).run calls).shape.opening
  | .update calls =>
    let u := Update.run { dialect := d, table := t } calls
    match u.assignments with
    | [] => ofText ""
    | a :: rest => u.opening a rest
  | .delete calls => (Delete.run { dialect := d, table := t } calls).opening

/-- The text before the condition, as the start of a statement. -/
def openingText (s : Script) : String := String.ofList ((s.opening d t).text 0)

/-- What stands after the condition: grouping, sorting and the window of a query, and nothing in a
change. -/
def closing : Script → Except Failure String
  | .select calls =>
    let shape := ((Select.new d t).run calls).shape
    (shape.grouping ++ ·) <$> shape.dialect.window shape.limit shape.offset
  | .update _ | .delete _ => .ok ""

/-- The table that the columns in the condition are written with. -/
def qualifier : Script → Option String
  | .select calls => ((Select.new d t).run calls).shape.qualifier
  | .update _ | .delete _ => none

/-- The uses of the condition, each with the calls that it makes on it. -/
def uses : Script → List (List WhereCall)
  | .select calls => calls.filterMap SelectCall.whereCalls?
  | .update calls => calls.filterMap UpdateCall.whereCalls?
  | .delete calls => calls.map DeleteCall.whereCalls

/-- The calls on the condition, in order. -/
def whereCalls (s : Script) : List WhereCall := s.uses.flatten

/-- A call replaces the condition by another one. -/
def ReplacesCondition : Script → Prop
  | .select calls => ∃ w, .setWhere w ∈ calls
  | _ => False

end Script

/-! ### What runs keep -/

namespace Select

@[simp] theorem run_cons (s : Select) (call : SelectCall) (calls : List SelectCall) :
    s.run (call :: calls) = (s.apply call).run calls := rfl

/-- The dialect and the table stay. -/
def SameFrame (s s' : SelectShape) : Prop := s'.dialect = s.dialect ∧ s'.table = s.table

theorem withField_frame {s : SelectShape} {column : String} {change : String → SelectShape}
    (h : ∀ name, SameFrame s (change name)) : SameFrame s (withField s column change) := by
  unfold withField
  split
  · exact h _
  · exact ⟨rfl, rfl⟩

theorem addColumns_frame (s : SelectShape) (names : List String) :
    SameFrame s (names.foldl addColumn s) := by
  induction names generalizing s with
  | nil => exact ⟨rfl, rfl⟩
  | cons name rest ih =>
    have hfirst : SameFrame s (addColumn s name) := withField_frame fun _ => ⟨rfl, rfl⟩
    have hrest := ih (addColumn s name)
    exact ⟨hrest.1.trans hfirst.1, hrest.2.trans hfirst.2⟩

theorem apply_frame (s : Select) (call : SelectCall) : SameFrame s.shape (s.apply call).shape := by
  cases call with
  | columns names => exact addColumns_frame s.shape names
  | groupBy column => exact withField_frame fun _ => ⟨rfl, rfl⟩
  | orderBy column ascending => exact withField_frame fun _ => ⟨rfl, rfl⟩
  | _ => exact ⟨rfl, rfl⟩

theorem run_frame (s : Select) (calls : List SelectCall) :
    SameFrame s.shape (s.run calls).shape := by
  induction calls generalizing s with
  | nil => exact ⟨rfl, rfl⟩
  | cons call rest ih =>
    have hfirst := apply_frame s call
    have hrest := ih (s.apply call)
    exact ⟨hrest.1.trans hfirst.1, hrest.2.trans hfirst.2⟩

/-- The condition depends on the uses of it alone, as long as it is not replaced. -/
theorem run_condition (s : Select) (calls : List SelectCall) (h : ¬∃ w, .setWhere w ∈ calls) :
    (s.run calls).condition =
      Where.used s.shape.dialect s.shape.table s.condition
        (calls.filterMap SelectCall.whereCalls?) := by
  induction calls generalizing s with
  | nil => rfl
  | cons call rest ih =>
    have hrest : ¬∃ w, .setWhere w ∈ rest := fun ⟨w, hw⟩ => h ⟨w, List.mem_cons_of_mem _ hw⟩
    rw [run_cons, ih _ hrest, (apply_frame s call).1, (apply_frame s call).2]
    cases call with
    | setWhere w => exact absurd ⟨w, List.mem_cons_self⟩ h
    | _ => rfl

end Select

namespace Update

@[simp] theorem run_cons (u : Update) (call : UpdateCall) (calls : List UpdateCall) :
    u.run (call :: calls) = (u.apply call).run calls := rfl

theorem apply_frame (u : Update) (call : UpdateCall) :
    (u.apply call).dialect = u.dialect ∧ (u.apply call).table = u.table := by
  cases call with
  | set column o => simp only [apply, assign]; split <;> exact ⟨rfl, rfl⟩
  | setExpression column e => simp only [apply, assign]; split <;> exact ⟨rfl, rfl⟩
  | startWhere => exact ⟨rfl, rfl⟩
  | restrict call => exact ⟨rfl, rfl⟩

theorem run_frame (u : Update) (calls : List UpdateCall) :
    (u.run calls).dialect = u.dialect ∧ (u.run calls).table = u.table := by
  induction calls generalizing u with
  | nil => exact ⟨rfl, rfl⟩
  | cons call rest ih =>
    rw [run_cons, (ih _).1, (ih _).2]
    exact apply_frame u call

/-- The condition depends on the uses of it alone. -/
theorem run_condition (u : Update) (calls : List UpdateCall) :
    (u.run calls).condition =
      Where.used u.dialect u.table u.condition (calls.filterMap UpdateCall.whereCalls?) := by
  induction calls generalizing u with
  | nil => rfl
  | cons call rest ih =>
    rw [run_cons, ih, (apply_frame u call).1, (apply_frame u call).2]
    cases call with
    | set column o => simp only [apply, assign]; split <;> rfl
    | setExpression column e => simp only [apply, assign]; split <;> rfl
    | startWhere => rfl
    | restrict call => rfl

end Update

namespace Delete

@[simp] theorem run_cons (s : Delete) (call : DeleteCall) (calls : List DeleteCall) :
    s.run (call :: calls) = (s.apply call).run calls := rfl

theorem run_frame (s : Delete) (calls : List DeleteCall) :
    (s.run calls).dialect = s.dialect ∧ (s.run calls).table = s.table := by
  induction calls generalizing s with
  | nil => exact ⟨rfl, rfl⟩
  | cons call rest ih =>
    rw [run_cons, (ih _).1, (ih _).2]
    cases call <;> exact ⟨rfl, rfl⟩

/-- The condition depends on the uses of it alone. -/
theorem run_condition (s : Delete) (calls : List DeleteCall) :
    (s.run calls).condition =
      Where.used s.dialect s.table s.condition (calls.map DeleteCall.whereCalls) := by
  induction calls generalizing s with
  | nil => rfl
  | cons call rest ih =>
    rw [run_cons, ih]
    cases call <;> rfl

end Delete

/-! ### What comes of a script -/

namespace Script

variable (d : Dialect) (t : Table)

/-- A statement is its template with nothing before it. -/
theorem prepare_eq_template (s : Script) :
    s.prepare d t = (s.template d t).map fun u =>
      { sql := String.ofList (u.text 0), kind := s.kind d t, args := u.args, dialect := d,
        table := t } := by
  cases s with
  | select calls =>
    have h := ((Select.new d t).run calls).prepare_eq_template
    rw [(Select.run_frame _ calls).1, (Select.run_frame _ calls).2] at h
    exact h
  | update calls =>
    have hframe := Update.run_frame { dialect := d, table := t } calls
    have h := Prepared.ofDraft_of_template
      (Update.run { dialect := d, table := t } calls).render_eq_fill .update d t
    rw [prepare, Update.prepare, hframe.1, hframe.2]
    exact h
  | delete calls =>
    have hframe := Delete.run_frame { dialect := d, table := t } calls
    have h := Prepared.ofDraft_of_template
      (Delete.run { dialect := d, table := t } calls).render_eq_fill .delete d t
    rw [prepare, Delete.prepare, hframe.1, hframe.2]
    exact h

/-- The arguments before the condition are what the columns are set to. -/
theorem args_opening (s : Script) : (s.opening d t).args = s.assigned d t := by
  cases s with
  | select calls | delete calls => rfl
  | update calls =>
    rw [opening, assigned]
    cases (Update.run { dialect := d, table := t } calls).assignments with
    | nil => rfl
    | cons a rest => exact Update.args_opening _ a rest

/-- A statement is its opening, its condition and its closing, less the blanks at its end. -/
theorem template_eq_parts {s : Script} {u : Template} (h : s.template d t = .ok u) :
    ∃ body tail, Condition.template (s.qualifier d t) (.ofWhere? (s.condition d t)) = .ok body ∧
      s.closing d t = .ok tail ∧ u = (s.opening d t ++ body ++ ofText tail).trimmed := by
  cases s with
  | select calls =>
    obtain ⟨v, hv, rfl⟩ := Outcome.map_eq_ok.mp h
    unfold SelectShape.template at hv
    split at hv
    · cases hv
    · simp only [Outcome.bind_eq_ok, Outcome.pure_eq_ok] at hv
      obtain ⟨body, hbody, window, hwindow, rfl⟩ := hv
      exact ⟨body, _, hbody, Outcome.map_eq_ok.mpr ⟨window, hwindow, rfl⟩, rfl⟩
  | update calls =>
    obtain ⟨v, hv, rfl⟩ := Outcome.map_eq_ok.mp h
    unfold Update.wholeTemplate at hv
    split at hv
    · cases hv
    · cases hv
    · rename_i a rest _ hassigned
      obtain ⟨body, hbody, rfl⟩ := Outcome.map_eq_ok.mp hv
      refine ⟨body, "", hbody, rfl, ?_⟩
      simp only [opening, hassigned, Template.append_empty]
  | delete calls =>
    obtain ⟨v, hv, rfl⟩ := Outcome.map_eq_ok.mp h
    obtain ⟨body, hbody, rfl⟩ := Outcome.map_eq_ok.mp hv
    exact ⟨body, "", hbody, rfl, by rw [Template.append_empty]; rfl⟩

/-- **The condition of a statement is one run** of the calls on it, whatever is called between
them. -/
theorem condition_eq_run {s : Script} (h : ¬s.ReplacesCondition) (huses : s.uses ≠ []) :
    s.condition d t = some (Where.run { dialect := d, table := t } s.whereCalls) := by
  rw [whereCalls, ← Where.used_none d t huses]
  cases s with
  | select calls => exact (Select.new d t).run_condition calls h
  | update calls => exact Update.run_condition _ calls
  | delete calls => exact Delete.run_condition _ calls

end Script

end Relmap
