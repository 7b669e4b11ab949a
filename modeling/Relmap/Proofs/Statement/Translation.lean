import Relmap.Proofs.Statement.Script

/-!
# The same calls under another dialect

A condition, a query or a script is put under another dialect by putting all queries and conditions
in it under that dialect (`Script.inDialect`). It does not matter whether this is done before the
calls are made or after (`Select.inDialect_run` and its like). Between dialects that write names and
windows in the same way, it changes nothing in a template but the dialect of its slots
(`Script.template_inDialect`), and PostgreSQL and H2 are such dialects (`postgresql_alike_h2`).
-/

namespace Relmap

open Text
open Template (ofText ofArgument ofMoreArguments)

/-- Dialects that write names and windows in the same way and bind the same values. -/
structure Dialect.Alike (d e : Dialect) : Prop where
  nameQuote : d.nameQuote = e.nameQuote
  window : ∀ limit offset, d.window limit offset = e.window limit offset
  converter : ∀ c, d.converter c = e.converter c

theorem postgresql_alike_h2 : Dialect.Alike .postgresql .h2 where
  nameQuote := rfl
  window limit offset := by simp [Dialect.window, Dialect.skipsWithoutLimit]
  converter c := by cases c <;> rfl

/-- A declaration gives the same table. -/
theorem Dialect.Alike.toTable {d e : Dialect} (h : d.Alike e) (t : TableDecl) :
    t.toTable d = t.toTable e := by
  have hfield : ∀ f : FieldDecl, f.toField d = f.toField e := fun f => by
    simp only [FieldDecl.toField, h.converter]
  simp only [TableDecl.toTable, hfield]

theorem Dialect.Alike.quotedName {d e : Dialect} (h : d.Alike e) (name : String) :
    d.quotedName name = e.quotedName name := by
  rw [Dialect.quotedName, Dialect.quotedName, h.nameQuote]

theorem Dialect.Alike.column {d e : Dialect} (h : d.Alike e) (table : Option String)
    (column : String) : d.column table column = e.column table column := by
  cases table <;> simp only [Dialect.column, h.quotedName]

/-! ### Templates -/

/-- The slot under a dialect. -/
def Slot.inDialect (e : Dialect) (s : Slot) : Slot := { s with dialect := e }

namespace Template

/-- The template with its slots under a dialect. -/
def inDialect (e : Dialect) (t : Template) : Template :=
  { t with signs := t.signs.map (Sign.map (Slot.inDialect e)) }

variable {e : Dialect}

@[simp] theorem inDialect_ofText (s : String) : (ofText s).inDialect e = ofText s :=
  congrArg (Template.mk · []) (map_unmarked _ _)

@[simp] theorem inDialect_append (t u : Template) :
    (t ++ u).inDialect e = t.inDialect e ++ u.inDialect e := by
  have hcomm : Sign.map (Slot.inDialect e) ∘ Sign.map (Slot.shift t.args.length) =
      Sign.map (Slot.shift t.args.length) ∘ Sign.map (Slot.inDialect e) := by
    funext x
    cases x <;> rfl
  change Template.mk ((t.signs ++ u.signs.map _).map _) _ =
    Template.mk (t.signs.map _ ++ (u.signs.map _).map _) _
  rw [List.map_append, List.map_map, List.map_map, hcomm]
  rfl

@[simp] theorem inDialect_ofArgument (d : Dialect) (a : Argument) :
    (ofArgument d a).inDialect e = ofArgument e a := rfl

@[simp] theorem inDialect_ofMoreArguments (d : Dialect) (args : List Argument) :
    (ofMoreArguments d args).inDialect e = ofMoreArguments e args := by
  induction args with
  | nil => exact inDialect_ofText ""
  | cons a rest ih => simp [ofMoreArguments, ih]

@[simp] theorem inDialect_trimmed (t : Template) :
    t.trimmed.inDialect e = (t.inDialect e).trimmed :=
  congrArg (Template.mk · t.args) (trimMarked_map _ _).symm

theorem inDialect_operand (op : Connective) (kind : ClauseKind) (t : Template) :
    (t.operand op kind).inDialect e = (t.inDialect e).operand op kind := by
  unfold operand
  split
  · split
    · rfl
    · simp
  · rfl

theorem inDialect_negation (kind : ClauseKind) (t : Template) :
    (negation kind t).inDialect e = negation kind (t.inDialect e) := by
  cases kind <;> simp [negation]

theorem inDialect_joined (op : Connective) (t u : Template) :
    (t.joined op u).inDialect e = (t.inDialect e).joined op (u.inDialect e) := by
  simp [joined]

end Template

theorem Dialect.map_rawSigns (d e : Dialect) (count : Nat) (quote : Option Char) (sql : List Char) :
    (d.rawSigns count quote sql).map (Sign.map (Slot.inDialect e)) =
      e.rawSigns count quote sql := by
  induction sql generalizing count quote with
  | nil => rfl
  | cons c r ih =>
    rw [rawSigns, rawSigns]
    split
    · rw [List.map_cons, ih]
      rfl
    · rw [List.map_cons, ih]
      rfl

theorem Leaf.template_inDialect {d e : Dialect} (h : d.Alike e) (table : Option String) (l : Leaf) :
    (l.template d table).inDialect e = l.template e table := by
  have hcolumn := h.column
  cases l with
  | compare column operator rhs => cases rhs <;> simp [template, Rhs.template, hcolumn]
  | between column low high => simp [template, hcolumn]
  | inList column first rest negated => simp [template, hcolumn]
  | null column negated => simp [template, hcolumn]
  | raw sql args =>
    refine congrArg (Template.mk · args) ?_
    change (d.rawSigns 0 none sql.toList ++ unmarked [' ']).map _ = _
    rw [List.map_append, Dialect.map_rawSigns, map_unmarked]

/-! ### Conditions -/

/-- The query under a dialect. -/
def SelectShape.inDialect (e : Dialect) (s : SelectShape) : SelectShape := { s with dialect := e }

mutual

/-- The condition with all queries in it under a dialect. -/
def Clause.inDialect (e : Dialect) : Clause → Clause
  | .leaf l => .leaf l
  | .inQuery column query negated => .inQuery column (SubQuery.inDialect e query) negated
  | .many op first second rest =>
    .many op (Clause.inDialect e first) (Clause.inDialect e second) (Clause.allInDialect e rest)
  | .not operand => .not (Clause.inDialect e operand)
  | .nonempty query => .nonempty (SubQuery.inDialect e query)

/-- The conditions with all queries in them under a dialect. -/
def Clause.allInDialect (e : Dialect) : List Clause → List Clause
  | [] => []
  | c :: rest => Clause.inDialect e c :: Clause.allInDialect e rest

/-- The query with all conditions in it under a dialect. -/
def SubQuery.inDialect (e : Dialect) : SubQuery → SubQuery
  | .select shape condition => .select (shape.inDialect e) (Condition.inDialect e condition)
  | .outside outcome columns => .outside (outcome.map (Template.inDialect e)) columns

/-- The condition of a query under a dialect. -/
def Condition.inDialect (e : Dialect) : Condition → Condition
  | .absent => .absent
  | .broken cause => .broken cause
  | .holds _ clause => .holds e (Clause.inDialect e clause)

end

theorem Clause.allInDialect_eq_map (e : Dialect) (cs : List Clause) :
    Clause.allInDialect e cs = cs.map (Clause.inDialect e) := by
  induction cs with
  | nil => rfl
  | cons c rest ih => rw [Clause.allInDialect, ih, List.map_cons]

theorem Clause.kind_inDialect (e : Dialect) (c : Clause) : (c.inDialect e).kind = c.kind := by
  cases c <;> rfl

theorem SubQuery.width_inDialect (e : Dialect) (q : SubQuery) :
    (q.inDialect e).width = q.width := by
  cases q <;> rfl

theorem SelectShape.template_inDialect {d e : Dialect} (h : d.Alike e) (s : SelectShape)
    (out : Except Failure Template) :
    (s.inDialect e).template (out.map (Template.inDialect e)) =
      ((s.inDialect d).template out).map (Template.inDialect e) := by
  have hcolumns :
      ∀ columns, (s.inDialect e).columnList columns = (s.inDialect d).columnList columns := by
    intro columns
    have hcolumn : e.column s.qualifier = d.column s.qualifier :=
      funext fun column => (h.column _ column).symm
    change ", ".intercalate (columns.map (e.column s.qualifier)) =
      ", ".intercalate (columns.map (d.column s.qualifier))
    rw [hcolumn]
  have hopening : (s.inDialect e).opening = (s.inDialect d).opening := by
    simp only [opening, selection, hcolumns]
    simp only [inDialect, h.quotedName]
    rfl
  have hkey : (s.inDialect e).sortKey = (s.inDialect d).sortKey := by
    funext key
    cases key with
    | column name ascending => exact congrArg (· ++ _) (h.column s.qualifier name).symm
    | expression sql => rfl
  have hgrouping : (s.inDialect e).grouping = (s.inDialect d).grouping := by
    simp only [grouping, hcolumns, hkey]
    rfl
  have hwindow : (s.inDialect e).dialect.window s.limit s.offset =
      (s.inDialect d).dialect.window s.limit s.offset := (h.window _ _).symm
  cases hfault : s.fault with
  | some f =>
    have hfault' : ∀ x, (s.inDialect x).fault = some f := fun _ => hfault
    simp only [SelectShape.template, hfault']
    rfl
  | none =>
    have hfault' : ∀ x, (s.inDialect x).fault = none := fun _ => hfault
    simp only [SelectShape.template, hfault', hopening, hgrouping]
    cases out with
    | error f => rfl
    | ok t =>
      change (do
        let window ← (s.inDialect e).dialect.window s.limit s.offset
        return _) = Except.map _ (do
          let window ← (s.inDialect d).dialect.window s.limit s.offset
          return _)
      rw [hwindow]
      cases (s.inDialect d).dialect.window s.limit s.offset with
      | error f => rfl
      | ok window =>
        refine congrArg Except.ok ?_
        rw [Template.inDialect_append, Template.inDialect_append, Template.inDialect_ofText,
          Template.inDialect_ofText]

mutual

/-- Another dialect changes nothing in what a condition writes but the dialect of its slots. -/
theorem Clause.template_inDialect {d e : Dialect} (h : d.Alike e) (table : Option String) :
    ∀ c : Clause, (c.inDialect e).template e table =
      ((c.inDialect d).template d table).map (Template.inDialect e)
  | .leaf l => congrArg Except.ok (l.template_inDialect h table).symm
  | .inQuery column query negated => by
    simp only [Clause.inDialect, Clause.template, SubQuery.template_inDialect h query,
      Outcome.map_map, Template.inDialect_append, Template.inDialect_ofText, h.column]
  | .many op first second rest => by
    have hrest := Clause.joinedTemplate_inDialect h table op rest
    simp only [Clause.inDialect, Clause.template, Clause.template_inDialect h table first,
      Clause.template_inDialect h table second, Outcome.map_bind, Outcome.bind_map,
      Clause.kind_inDialect, ← Template.inDialect_operand, ← Template.inDialect_joined, hrest]
  | .not operand => by
    simp only [Clause.inDialect, Clause.template, Clause.template_inDialect h table operand,
      Outcome.map_map, Clause.kind_inDialect, Template.inDialect_negation]
  | .nonempty query => by
    simp only [Clause.inDialect, Clause.template, SubQuery.template_inDialect h query,
      Outcome.map_map, Template.inDialect_append, Template.inDialect_ofText]

theorem Clause.joinedTemplate_inDialect {d e : Dialect} (h : d.Alike e) (table : Option String)
    (op : Connective) :
    ∀ (cs : List Clause) (left : Template),
      Clause.joinedTemplate e table op (left.inDialect e) (Clause.allInDialect e cs) =
        (Clause.joinedTemplate d table op left (Clause.allInDialect d cs)).map
          (Template.inDialect e)
  | [], _ => rfl
  | c :: rest, left => by
    have hrest := Clause.joinedTemplate_inDialect h table op rest
    simp only [Clause.allInDialect, Clause.joinedTemplate, Clause.template_inDialect h table c,
      Outcome.map_bind, Outcome.bind_map, Clause.kind_inDialect, ← Template.inDialect_operand,
      ← Template.inDialect_joined, hrest]

theorem SubQuery.template_inDialect {d e : Dialect} (h : d.Alike e) :
    ∀ q : SubQuery, (q.inDialect e).template = ((q.inDialect d).template).map (Template.inDialect e)
  | .select shape condition => by
    have hcondition := Condition.template_inDialect h shape.qualifier condition
    have hshape :=
      shape.template_inDialect h (Condition.template shape.qualifier (condition.inDialect d))
    rw [← hcondition] at hshape
    change ((shape.inDialect e).template _).map Template.trimmed =
      (((shape.inDialect d).template _).map Template.trimmed).map _
    rw [Outcome.map_map]
    refine (congrArg (Except.map Template.trimmed) hshape).trans ?_
    rw [Outcome.map_map]
    simp only [Template.inDialect_trimmed]
    rfl
  | .outside outcome columns => by
    have htwice : ∀ t : Template, (t.inDialect d).inDialect e = t.inDialect e := fun t => by
      refine congrArg (Template.mk · t.args) ?_
      rw [Template.inDialect, List.map_map]
      refine congrFun (congrArg List.map (funext fun x => ?_)) _
      cases x <;> rfl
    change outcome.map _ = (outcome.map _).map _
    rw [Outcome.map_map]
    simp only [htwice]

theorem Condition.template_inDialect {d e : Dialect} (h : d.Alike e) (table : Option String) :
    ∀ c : Condition, Condition.template table (c.inDialect e) =
      (Condition.template table (c.inDialect d)).map (Template.inDialect e)
  | .absent => congrArg Except.ok (Template.inDialect_ofText "").symm
  | .broken _ => rfl
  | .holds _ clause => by
    simp only [Condition.inDialect, Condition.template, Clause.template_inDialect h table clause,
      Outcome.map_map, Template.inDialect_append, Template.inDialect_ofText]

end

/-! ### Calls on conditions -/

/-- The test with its query under a dialect. -/
def Test.inDialect (e : Dialect) : Test → Test
  | .inQuery column query negated => .inQuery column (query.inDialect e) negated
  | .nonempty query negated => .nonempty (query.inDialect e) negated
  | x => x

/-- The call with its query under a dialect. -/
def WhereCall.inDialect (e : Dialect) : WhereCall → WhereCall
  | .test x => .test (x.inDialect e)
  | call => call

/-- The waiting part under a dialect. -/
def Pending.inDialect (e : Dialect) : Pending → Pending
  | .connective op left => .connective op (left.inDialect e)
  | .not => .not

/-- The condition, while it is put together, under a dialect. -/
def Where.inDialect (e : Dialect) (w : Where) : Where :=
  { w with
    dialect := e
    clauses := w.clauses.map (Clause.inDialect e)
    pending := w.pending.map (Pending.inDialect e) }

/-- It does not matter whether a test is put under a dialect, or what it makes. -/
theorem Table.clause_inDialect (t : Table) (e : Dialect) (x : Test) :
    t.clause (x.inDialect e) = (t.clause x).map (Clause.inDialect e) := by
  -- What has no query inside is the same under every dialect.
  have hsame : (∀ c, t.clause x = .ok c → c.inDialect e = c) →
      t.clause x = (t.clause x).map (Clause.inDialect e) := by
    intro h
    cases hx : t.clause x with
    | error f => rfl
    | ok c => exact congrArg Except.ok (h c hx).symm
  cases x with
  | inQuery column query negated =>
    simp only [Test.inDialect, clause, Clause.ofQuery, SubQuery.width_inDialect, Outcome.bind_map]
    split <;> rfl
  | nonempty query negated => cases negated <;> rfl
  | _ => exact hsame fun c hc => by cases makes_of_clause hc; rfl

namespace Where

theorem foldl_join_inDialect (e : Dialect) (ps : List Pending) (c : Clause) :
    (ps.map (Pending.inDialect e)).foldl Pending.join (c.inDialect e) =
      (ps.foldl Pending.join c).inDialect e := by
  induction ps generalizing c with
  | nil => rfl
  | cons p rest ih =>
    rw [List.map_cons, List.foldl_cons, List.foldl_cons, ← ih]
    cases p <;> rfl

theorem add_inDialect (e : Dialect) (w : Where) (c : Clause) :
    (w.inDialect e).add (c.inDialect e) = (w.add c).inDialect e := by
  have hjoin := foldl_join_inDialect e w.pending c
  simp only [inDialect, add, hjoin, List.map_cons, List.map_nil]

theorem connected_inDialect (e : Dialect) (op : Connective) (cs : List Clause) :
    Clause.connected op (cs.map (Clause.inDialect e)) =
      (Clause.connected op cs).map (Clause.inDialect e) := by
  match cs with
  | [] => rfl
  | [_] => rfl
  | a :: b :: rest =>
    refine congrArg Except.ok ?_
    rw [Clause.inDialect, Clause.allInDialect_eq_map]

/-- It does not matter whether a condition is put under a dialect before a call or after it. -/
theorem apply_inDialect (e : Dialect) (w : Where) (call : WhereCall) :
    (w.inDialect e).apply (call.inDialect e) = (w.apply call).inDialect e := by
  cases call with
  | test x =>
    have hclause : (w.inDialect e).table.clause (x.inDialect e) =
        (w.table.clause x).map (Clause.inDialect e) :=
      Table.clause_inDialect w.table e x
    change (w.inDialect e).test (x.inDialect e) = (w.test x).inDialect e
    unfold Where.test
    rw [hclause]
    cases w.table.clause x with
    | error f => rfl
    | ok c => exact add_inDialect e w c
  | connect op =>
    change (w.inDialect e).connect op = (w.connect op).inDialect e
    unfold connect
    cases hclauses : w.clauses with
    | nil => simp [inDialect, fail, hclauses]
    | cons left rest => simp [inDialect, hclauses, Pending.inDialect]
  | not => rfl
  | combine op count =>
    change (w.inDialect e).combine op count = (w.combine op count).inDialect e
    have hlen : (w.inDialect e).clauses.length = w.clauses.length := List.length_map _
    have hlast : ((w.inDialect e).clauses.take count).reverse =
        (w.clauses.take count).reverse.map (Clause.inDialect e) := by
      rw [List.map_reverse, List.map_take]
      rfl
    unfold combine
    rw [hlen, hlast, connected_inDialect]
    split
    · rfl
    · cases Clause.connected op (w.clauses.take count).reverse with
      | error f => rfl
      | ok c =>
        have hadd := add_inDialect e { w with clauses := w.clauses.drop count } c
        rw [← hadd]
        simp only [inDialect, List.map_drop]
        rfl

theorem condition_inDialect (e : Dialect) (w : Where) :
    (w.inDialect e).condition = w.condition.inDialect e := by
  have hclause : (w.inDialect e).clause = w.clause.map (Clause.inDialect e) := by
    obtain ⟨d, t, clauses, pending, fault⟩ := w
    cases fault with
    | some f => rfl
    | none =>
      cases pending with
      | cons p rest => rfl
      | nil =>
        match clauses with
        | [] => rfl
        | [c] => rfl
        | a :: b :: rest => simp [inDialect, clause, Except.map]
  rw [condition, condition, hclause]
  cases w.clause <;> rfl

theorem started_inDialect (d e : Dialect) (t : Table) (w : Option Where) :
    started e t (w.map (inDialect e)) = (started d t w).inDialect e := by
  cases w <;> rfl

end Where

theorem Condition.ofWhere?_inDialect (e : Dialect) (w : Option Where) :
    Condition.ofWhere? (w.map (Where.inDialect e)) = (Condition.ofWhere? w).inDialect e := by
  cases w with
  | none => rfl
  | some w => exact w.condition_inDialect e

/-! ### Queries -/

/-- The call with all conditions and queries in it under a dialect. -/
def SelectCall.inDialect (e : Dialect) : SelectCall → SelectCall
  | .restrict call => .restrict (call.inDialect e)
  | .setWhere w => .setWhere (w.inDialect e)
  | call => call

namespace Select

/-- The query with all conditions and queries in it under a dialect. -/
def inDialect (e : Dialect) (s : Select) : Select :=
  ⟨s.shape.inDialect e, s.condition.map (Where.inDialect e)⟩

theorem withField_inDialect (e : Dialect) (s : SelectShape) (column : String)
    {change change' : String → SelectShape} (h : ∀ name, change' name = (change name).inDialect e) :
    withField (s.inDialect e) column change' = (withField s column change).inDialect e := by
  have hfield : (s.inDialect e).table.field column = s.table.field column := rfl
  unfold withField
  rw [hfield]
  cases s.table.field column with
  | ok f => exact h f.column
  | error f => rfl

theorem addColumns_inDialect (e : Dialect) (s : SelectShape) (names : List String) :
    names.foldl addColumn (s.inDialect e) = (names.foldl addColumn s).inDialect e := by
  induction names generalizing s with
  | nil => rfl
  | cons name rest ih =>
    have hname : addColumn (s.inDialect e) name = (addColumn s name).inDialect e :=
      withField_inDialect e s name fun _ => rfl
    rw [List.foldl_cons, List.foldl_cons, hname, ih]

theorem apply_inDialect (e : Dialect) (s : Select) (call : SelectCall) :
    (s.inDialect e).apply (call.inDialect e) = (s.apply call).inDialect e := by
  have hstarted : (s.inDialect e).startedWhere = s.startedWhere.inDialect e :=
    Where.started_inDialect s.shape.dialect e s.shape.table s.condition
  cases call with
  | columns names => exact congrArg (Select.mk · _) (addColumns_inDialect e s.shape names)
  | groupBy column =>
    exact congrArg (Select.mk · _) (withField_inDialect e s.shape column fun _ => rfl)
  | orderBy column ascending =>
    exact congrArg (Select.mk · _) (withField_inDialect e s.shape column fun _ => rfl)
  | startWhere => exact congrArg (fun w => Select.mk _ (some w)) hstarted
  | restrict call =>
    refine congrArg (fun w => Select.mk _ (some w)) ?_
    rw [hstarted, Where.apply_inDialect]
  | _ => rfl

/-- It does not matter whether a query is put under a dialect before its calls or after them. -/
theorem run_inDialect (e : Dialect) (s : Select) (calls : List SelectCall) :
    (s.inDialect e).run (calls.map (SelectCall.inDialect e)) = (s.run calls).inDialect e := by
  induction calls generalizing s with
  | nil => rfl
  | cons call rest ih => rw [List.map_cons, run_cons, run_cons, apply_inDialect, ih]

theorem subQuery_inDialect (e : Dialect) (s : Select) :
    (s.inDialect e).subQuery = s.subQuery.inDialect e := by
  refine congrArg (SubQuery.select _) ?_
  exact Condition.ofWhere?_inDialect e s.condition

end Select

/-! ### Changes -/

/-- The call with all queries in it under a dialect. -/
def UpdateCall.inDialect (e : Dialect) : UpdateCall → UpdateCall
  | .restrict call => .restrict (call.inDialect e)
  | call => call

/-- The call with all queries in it under a dialect. -/
def DeleteCall.inDialect (e : Dialect) : DeleteCall → DeleteCall
  | .startWhere => .startWhere
  | .restrict call => .restrict (call.inDialect e)

theorem Assignment.template_inDialect {d e : Dialect} (h : d.Alike e) (column : String)
    (a : Assignment) : (a.template d column).inDialect e = a.template e column := by
  cases a <;> simp [template, h.quotedName]

namespace Update

/-- The UPDATE with all queries in it under a dialect. -/
def inDialect (e : Dialect) (u : Update) : Update :=
  { u with dialect := e, condition := u.condition.map (Where.inDialect e) }

theorem assign_inDialect (e : Dialect) (u : Update) (a : Except Failure (String × Assignment)) :
    (u.inDialect e).assign a = (u.assign a).inDialect e := by
  cases a <;> rfl

theorem apply_inDialect (e : Dialect) (u : Update) (call : UpdateCall) :
    (u.inDialect e).apply (call.inDialect e) = (u.apply call).inDialect e := by
  have hstarted : (u.inDialect e).startedWhere = u.startedWhere.inDialect e :=
    Where.started_inDialect u.dialect e u.table u.condition
  cases call with
  | set column o => exact assign_inDialect e u _
  | setExpression column expression => exact assign_inDialect e u _
  | startWhere => exact congrArg (fun w => { u.inDialect e with condition := some w }) hstarted
  | restrict call =>
    refine congrArg (fun w => { u.inDialect e with condition := some w }) ?_
    rw [hstarted, Where.apply_inDialect]

/-- It does not matter whether an UPDATE is put under a dialect before its calls or after them. -/
theorem run_inDialect (e : Dialect) (u : Update) (calls : List UpdateCall) :
    (u.inDialect e).run (calls.map (UpdateCall.inDialect e)) = (u.run calls).inDialect e := by
  induction calls generalizing u with
  | nil => rfl
  | cons call rest ih => rw [List.map_cons, run_cons, run_cons, apply_inDialect, ih]

theorem assignedTemplate_inDialect {d e : Dialect} (h : d.Alike e)
    (assignments : List (String × Assignment)) (left : Template) :
    (assignedTemplate d left assignments).inDialect e =
      assignedTemplate e (left.inDialect e) assignments := by
  induction assignments generalizing left with
  | nil => rfl
  | cons a rest ih =>
    rw [assignedTemplate, assignedTemplate, ih, Template.inDialect_append,
      Template.inDialect_append, Template.inDialect_ofText, Assignment.template_inDialect h]

theorem wholeTemplate_inDialect {d e : Dialect} (h : d.Alike e) (u : Update) :
    (u.inDialect e).wholeTemplate = ((u.inDialect d).wholeTemplate).map (Template.inDialect e) := by
  have hcondition : Condition.template none (.ofWhere? (u.inDialect e).condition) =
      (Condition.template none (.ofWhere? (u.inDialect d).condition)).map
        (Template.inDialect e) := by
    simp only [inDialect, Condition.ofWhere?_inDialect]
    exact Condition.template_inDialect h none _
  have hopening :
      ∀ a rest, ((u.inDialect d).opening a rest).inDialect e = (u.inDialect e).opening a rest := by
    intro a rest
    simp only [opening, inDialect, Template.inDialect_append, assignedTemplate_inDialect h,
      Template.inDialect_ofText, Assignment.template_inDialect h, h.quotedName]
  unfold wholeTemplate
  rw [hcondition]
  cases hfault : u.fault with
  | some f =>
    have hfault' : ∀ x, (u.inDialect x).fault = some f := fun _ => hfault
    simp only [hfault']
    rfl
  | none =>
    have hfault' : ∀ x, (u.inDialect x).fault = none := fun _ => hfault
    cases hassignments : u.assignments with
    | nil =>
      have hassignments' : ∀ x, (u.inDialect x).assignments = [] := fun _ => hassignments
      simp only [hfault', hassignments']
      rfl
    | cons a rest =>
      have hassignments' : ∀ x, (u.inDialect x).assignments = a :: rest := fun _ => hassignments
      simp only [hfault', hassignments', Outcome.map_map, Template.inDialect_append, hopening]

end Update

namespace Delete

/-- The DELETE with all queries in it under a dialect. -/
def inDialect (e : Dialect) (s : Delete) : Delete :=
  { s with dialect := e, condition := s.condition.map (Where.inDialect e) }

theorem apply_inDialect (e : Dialect) (s : Delete) (call : DeleteCall) :
    (s.inDialect e).apply (call.inDialect e) = (s.apply call).inDialect e := by
  have hstarted : (s.inDialect e).startedWhere = s.startedWhere.inDialect e :=
    Where.started_inDialect s.dialect e s.table s.condition
  cases call with
  | startWhere => exact congrArg (fun w => { s.inDialect e with condition := some w }) hstarted
  | restrict call =>
    refine congrArg (fun w => { s.inDialect e with condition := some w }) ?_
    rw [hstarted, Where.apply_inDialect]

/-- It does not matter whether a DELETE is put under a dialect before its calls or after them. -/
theorem run_inDialect (e : Dialect) (s : Delete) (calls : List DeleteCall) :
    (s.inDialect e).run (calls.map (DeleteCall.inDialect e)) = (s.run calls).inDialect e := by
  induction calls generalizing s with
  | nil => rfl
  | cons call rest ih => rw [List.map_cons, run_cons, run_cons, apply_inDialect, ih]

theorem wholeTemplate_inDialect {d e : Dialect} (h : d.Alike e) (s : Delete) :
    (s.inDialect e).wholeTemplate = ((s.inDialect d).wholeTemplate).map (Template.inDialect e) := by
  have hcondition : Condition.template none (.ofWhere? (s.inDialect e).condition) =
      (Condition.template none (.ofWhere? (s.inDialect d).condition)).map
        (Template.inDialect e) := by
    simp only [inDialect, Condition.ofWhere?_inDialect]
    exact Condition.template_inDialect h none _
  have hopening : (s.inDialect d).opening.inDialect e = (s.inDialect e).opening := by
    simp only [opening, inDialect, Template.inDialect_ofText, h.quotedName]
  rw [wholeTemplate, wholeTemplate, hcondition, Outcome.map_map, Outcome.map_map]
  simp only [Template.inDialect_append, hopening]

end Delete

/-! ### Scripts -/

namespace Script

/-- The script with all conditions and queries in its calls under a dialect. -/
def inDialect (e : Dialect) : Script → Script
  | .select calls => .select (calls.map (SelectCall.inDialect e))
  | .update calls => .update (calls.map (UpdateCall.inDialect e))
  | .delete calls => .delete (calls.map (DeleteCall.inDialect e))

/-- **The same calls make the same statement** under another dialect, but for the dialect of its
slots. -/
theorem template_inDialect {d e : Dialect} (h : d.Alike e) (t : Table) (s : Script) :
    (s.inDialect e).template e t = ((s.inDialect d).template d t).map (Template.inDialect e) := by
  cases s with
  | select calls =>
    have hrun : ∀ x, (Select.new x t).run (calls.map (SelectCall.inDialect x)) =
        ((Select.new d t).run calls).inDialect x :=
      fun x => Select.run_inDialect x (Select.new d t) calls
    simp only [inDialect, template, hrun, Select.subQuery_inDialect]
    exact SubQuery.template_inDialect h _
  | update calls =>
    have hrun : ∀ x, Update.run { dialect := x, table := t } (calls.map (UpdateCall.inDialect x)) =
        (Update.run { dialect := d, table := t } calls).inDialect x :=
      fun x => Update.run_inDialect x { dialect := d, table := t } calls
    simp only [inDialect, template, hrun, Update.wholeTemplate_inDialect h, Outcome.map_map,
      Template.inDialect_trimmed]
  | delete calls =>
    have hrun : ∀ x, Delete.run { dialect := x, table := t } (calls.map (DeleteCall.inDialect x)) =
        (Delete.run { dialect := d, table := t } calls).inDialect x :=
      fun x => Delete.run_inDialect x { dialect := d, table := t } calls
    simp only [inDialect, template, hrun, Delete.wholeTemplate_inDialect h, Outcome.map_map,
      Template.inDialect_trimmed]

end Script

end Relmap
