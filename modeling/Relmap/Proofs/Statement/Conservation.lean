import Relmap.Proofs.Statement.Arguments
import Relmap.Proofs.Statement.Script

/-!
# No condition is lost

While a condition is put together its tests move between two stacks and into connectives and
negations, in whatever order the calls come. What is kept is all tests that the stacks hold
(`Where.leaves`): a call that does not fail adds its own and neither drops nor doubles one
(`Where.Step.leaves`). So the finished condition has the tests of all calls, each once, and its
arguments are the arguments of these tests. A statement is written as its opening, this condition
and its closing, and nothing stands between them or after them.

The main statement is `Script.conditions_kept`, for queries, UPDATEs and DELETEs.
-/

namespace Relmap

open scoped List
open Template (ofText)

/-! ### Tests on the stacks -/

/-- The tests of a waiting part. -/
def Pending.leaves : Pending → List Clause
  | .connective _ left => left.leaves
  | .not => []

/-- The tests that a call adds. -/
def WhereCall.leaves (t : Table) : WhereCall → List Clause
  | .test x =>
    match t.clause x with
    | .ok c => c.leaves
    | .error _ => []
  | _ => []

theorem Pending.leaves_join (c : Clause) (p : Pending) :
    (p.join c).leaves = p.leaves ++ c.leaves := by
  cases p with
  | connective op left => simp [join, leaves, Clause.leaves, Clause.allLeaves]
  | not => simp [join, leaves, Clause.leaves]

/-- What waits is taken up with all its tests. -/
theorem Pending.leaves_foldl_join (ps : List Pending) (c : Clause) :
    (ps.foldl Pending.join c).leaves ~ ps.flatMap Pending.leaves ++ c.leaves := by
  induction ps generalizing c with
  | nil => rfl
  | cons p rest ih =>
    rw [List.foldl_cons, List.flatMap_cons]
    have hswap :
        rest.flatMap Pending.leaves ++ p.leaves ~ p.leaves ++ rest.flatMap Pending.leaves :=
      List.perm_append_comm
    have := ih (p.join c)
    rw [leaves_join, ← List.append_assoc] at this
    exact this.trans (hswap.append_right _)

namespace Where

/-- All tests that a condition holds while it is put together. -/
def leaves (w : Where) : List Clause :=
  w.pending.flatMap Pending.leaves ++ w.clauses.flatMap Clause.leaves

theorem leaves_add (w : Where) (c : Clause) : (w.add c).leaves ~ c.leaves ++ w.leaves := by
  have hjoin := Pending.leaves_foldl_join w.pending c
  have hswap :
      w.pending.flatMap Pending.leaves ++ c.leaves ~ c.leaves ++ w.pending.flatMap Pending.leaves :=
    List.perm_append_comm
  rw [leaves, leaves, add, List.flatMap_nil, List.nil_append, List.flatMap_cons,
    ← List.append_assoc]
  exact (hjoin.trans hswap).append_right _

/-- **A call that does not fail adds its own tests**, and neither drops nor doubles one. -/
theorem Step.leaves {w w' : Where} {call : WhereCall} (h : Step w call w')
    (hok : w.failure? call = none) :
    w'.leaves ~ call.leaves w.table ++ w.leaves := by
  cases h with
  | fail h =>
    rw [h] at hok
    cases hok
  | @test t c h =>
    have hcall : WhereCall.leaves w.table (.test t) = c.leaves := by simp [WhereCall.leaves, h]
    rw [hcall]
    exact leaves_add w c
  | @connect op left rest h =>
    have hswap : left.leaves ++ w.pending.flatMap Pending.leaves ~
        w.pending.flatMap Pending.leaves ++ left.leaves := List.perm_append_comm
    rw [Where.leaves, Where.leaves, h, List.flatMap_cons, List.flatMap_cons]
    change left.leaves ++ _ ++ _ ~ w.pending.flatMap Pending.leaves ++ (left.leaves ++ _)
    rw [← List.append_assoc]
    exact hswap.append_right _
  | not => rfl
  | @combine op count a b rest hcount h =>
    -- The operands are the last conditions in the order they were added.
    have hoperands : (Clause.many op a b rest).leaves =
        (w.clauses.take count).reverse.flatMap Clause.leaves := by
      rw [h, Clause.leaves, Clause.allLeaves_eq_flatMap, List.flatMap_cons, List.flatMap_cons,
        List.append_assoc]
    have hreverse :
        (Clause.many op a b rest).leaves ~ (w.clauses.take count).flatMap Clause.leaves := by
      rw [hoperands]
      exact (List.reverse_perm _).flatMap_right _
    have hsplit : w.clauses.flatMap Clause.leaves =
        (w.clauses.take count).flatMap Clause.leaves ++
          (w.clauses.drop count).flatMap Clause.leaves := by
      rw [← List.flatMap_append, List.take_append_drop]
    have hpending :
        (w.clauses.take count).flatMap Clause.leaves ++ w.pending.flatMap Pending.leaves ~
          w.pending.flatMap Pending.leaves ++ (w.clauses.take count).flatMap Clause.leaves :=
      List.perm_append_comm
    refine (leaves_add _ _).trans ((hreverse.append_right _).trans ?_)
    change _ ~ w.leaves
    rw [Where.leaves, Where.leaves, hsplit, ← List.append_assoc, ← List.append_assoc]
    exact hpending.append_right _

/-- A run in which no call failed holds the tests of all its calls. -/
theorem leaves_run {w : Where} {calls : List WhereCall} (h : (w.run calls).fault = none) :
    (w.run calls).leaves ~ calls.flatMap (WhereCall.leaves w.table) ++ w.leaves := by
  induction calls generalizing w with
  | nil => rfl
  | cons call rest ih =>
    have hstep := (step_apply w call).leaves (failure?_eq_none_of_run h)
    have hrest := ih h
    rw [(step_apply w call).table] at hrest
    have hswap : rest.flatMap (WhereCall.leaves w.table) ++ call.leaves w.table ~
        call.leaves w.table ++ rest.flatMap (WhereCall.leaves w.table) := List.perm_append_comm
    rw [run_cons, List.flatMap_cons]
    refine (hrest.trans (hstep.append_left _)).trans ?_
    rw [← List.append_assoc]
    exact hswap.append_right _

/-- **The finished condition has the tests of all calls**, each once. -/
theorem leaves_clause_run {d : Dialect} {t : Table} {calls : List WhereCall} {c : Clause}
    (h : (run { dialect := d, table := t } calls).clause = .ok c) :
    c.leaves ~ calls.flatMap (WhereCall.leaves t) := by
  obtain ⟨hfault, hpending, hclauses⟩ := of_clause_eq_ok h
  have hrun := leaves_run hfault
  simpa [leaves, hpending, hclauses] using hrun

end Where

/-! ### Statements -/

namespace Script

variable {d : Dialect} {t : Table}

/-- The tests that the calls of a script add. -/
def leaves (t : Table) (s : Script) : List Clause := s.whereCalls.flatMap (WhereCall.leaves t)

/-- A condition that went wrong is no condition that could be written. -/
theorem clause_of_template {w : Where} {q : Option String} {u : Template}
    (h : Condition.template q w.condition = .ok u) :
    ∃ c v, w.clause = .ok c ∧ c.template w.dialect q = .ok v ∧ u = ofText "WHERE " ++ v := by
  unfold Where.condition at h
  cases hc : w.clause with
  | error e =>
    rw [hc] at h
    cases h
  | ok c =>
    rw [hc] at h
    obtain ⟨v, hv, rfl⟩ := Outcome.map_eq_ok.mp h
    exact ⟨c, v, rfl, hv, rfl⟩

/-- The finished condition in a statement that was put together, where the condition was used. -/
theorem exists_clause_of_template {s : Script} (h : ¬s.ReplacesCondition) (huses : s.uses ≠ [])
    {u : Template} (hu : s.template d t = .ok u) :
    ∃ (c : Clause) (v : Template) (tail : String),
      (Where.run { dialect := d, table := t } s.whereCalls).clause = .ok c ∧
      c.template d (s.qualifier d t) = .ok v ∧ s.closing d t = .ok tail ∧
      u = (s.opening d t ++ (ofText "WHERE " ++ v) ++ ofText tail).trimmed := by
  obtain ⟨body, tail, hbody, htail, rfl⟩ := template_eq_parts d t hu
  rw [condition_eq_run d t h huses] at hbody
  obtain ⟨c, v, hc, hv, rfl⟩ := clause_of_template hbody
  rw [Where.dialect_run] at hv
  exact ⟨c, v, tail, hc, hv, htail, rfl⟩

/-- A statement fails if a call on its condition fails. -/
theorem template_of_callFails {s : Script} (h : ¬s.ReplacesCondition)
    (hfails : Where.CallFails { dialect := d, table := t } s.whereCalls) (u : Template) :
    s.template d t ≠ .ok u := by
  intro hu
  have huses : s.uses ≠ [] := by
    rintro hnil
    obtain ⟨before, call, after, hcalls, -⟩ := hfails
    simp [whereCalls, hnil] at hcalls
  obtain ⟨c, v, tail, hc, -⟩ := exists_clause_of_template h huses hu
  exact Where.fault_run_of_callFails hfails (Where.of_clause_eq_ok hc).1

/-- A statement whose condition was not used adds no test. -/
theorem leaves_of_uses_eq_nil {s : Script} (h : s.uses = []) : s.leaves t = [] := by
  simp [leaves, whereCalls, h]

theorem condition_of_uses_eq_nil {s : Script} (h : ¬s.ReplacesCondition) (huses : s.uses = []) :
    s.condition d t = none := by
  cases s with
  | select calls =>
    exact (Select.run_condition _ calls h).trans (congrArg (Where.used d t none) huses)
  | update calls =>
    exact (Update.run_condition _ calls).trans (congrArg (Where.used d t none) huses)
  | delete calls =>
    exact (Delete.run_condition _ calls).trans (congrArg (Where.used d t none) huses)

/-- A statement without a condition is its opening and its closing. -/
theorem parts_of_unrestricted {s : Script} {p : Prepared} (h : ¬s.ReplacesCondition)
    (huses : s.uses = []) (hp : s.prepare d t = .ok p) :
    ∃ tail, s.closing d t = .ok tail ∧ p.sql = Text.trimTail (s.openingText d t ++ tail) ∧
      p.args = s.assigned d t := by
  rw [prepare_eq_template] at hp
  obtain ⟨u, hu, rfl⟩ := Outcome.map_eq_ok.mp hp
  obtain ⟨body, tail, hbody, htail, rfl⟩ := template_eq_parts d t hu
  rw [condition_of_uses_eq_nil h huses] at hbody
  cases hbody
  refine ⟨tail, htail, ?_, ?_⟩
  · simp [Template.text_trimmed, Template.text_append, Text.trimTail, openingText]
  · simp [args_opening]

/-- A statement with a condition is its opening, the finished condition and its closing. -/
theorem parts_of_restricted {s : Script} {p : Prepared} (h : ¬s.ReplacesCondition)
    (huses : s.uses ≠ []) (hp : s.prepare d t = .ok p) :
    ∃ (tail : String) (c : Clause) (out : Draft), s.closing d t = .ok tail ∧
      (Where.run { dialect := d, table := t } s.whereCalls).clause = .ok c ∧
      c.render d (s.qualifier d t)
        { text := s.openingText d t ++ "WHERE ", args := s.assigned d t } = .ok out ∧
      p.sql = Text.trimTail (out.text ++ tail) ∧ p.args = out.args ∧
      p.args = s.assigned d t ++ c.args := by
  rw [prepare_eq_template] at hp
  obtain ⟨u, hu, rfl⟩ := Outcome.map_eq_ok.mp hp
  obtain ⟨c, v, tail, hc, hv, htail, rfl⟩ := exists_clause_of_template h huses hu
  have hout := c.writes_template d (s.qualifier d t)
    { text := s.openingText d t ++ "WHERE ", args := s.assigned d t }
  rw [hv] at hout
  refine ⟨tail, c, _, htail, hc, hout, ?_, ?_, ?_⟩
  · simp [Template.text_trimmed, Template.text_append, Draft.fill, Text.trimTail, openingText,
      args_opening]
  · simp [Draft.fill, args_opening]
  · simp [args_opening, Clause.args_template d _ c v hv]

/-- **No condition is lost.** If a statement can be prepared, its text is its opening, its condition
and its closing, and it has a WHERE part as soon as its condition was used. Then the condition is
the finished one of the calls and has exactly the tests that the calls added, each once. The
arguments are what columns are set to, and then the arguments of these tests. If a call on the
condition fails, the statement cannot be prepared. -/
theorem conditions_kept (d : Dialect) (t : Table) (s : Script) (h : ¬s.ReplacesCondition) :
    (∀ p, s.prepare d t = .ok p →
      (∃ tail, s.closing d t = .ok tail ∧
        (s.uses ≠ [] → ∃ (c : Clause) (out : Draft),
          (Where.run { dialect := d, table := t } s.whereCalls).clause = .ok c ∧
          c.render d (s.qualifier d t)
            { text := s.openingText d t ++ "WHERE ", args := s.assigned d t } = .ok out ∧
          p.sql = Text.trimTail (out.text ++ tail) ∧ p.args = out.args ∧ c.leaves ~ s.leaves t) ∧
        (s.uses = [] → p.sql = Text.trimTail (s.openingText d t ++ tail))) ∧
      ∃ args, p.args = s.assigned d t ++ args ∧ args ~ (s.leaves t).flatMap Clause.args) ∧
    (Where.CallFails { dialect := d, table := t } s.whereCalls →
      ∃ e, s.prepare d t = .error e) := by
  refine ⟨fun p hp => ?_, fun hfails => ?_⟩
  · by_cases huses : s.uses = []
    · obtain ⟨tail, htail, hsql, hargs⟩ := parts_of_unrestricted h huses hp
      refine ⟨⟨tail, htail, fun hne => absurd huses hne, fun _ => hsql⟩, [], ?_, ?_⟩
      · rw [hargs, List.append_nil]
      · rw [leaves_of_uses_eq_nil huses]
        rfl
    · obtain ⟨tail, c, out, htail, hc, hout, hsql, hsame, hargs⟩ := parts_of_restricted h huses hp
      have hleaves : c.leaves ~ s.leaves t := Where.leaves_clause_run hc
      have hperm : c.args ~ (s.leaves t).flatMap Clause.args := by
        rw [Clause.args_eq_leaves]
        exact hleaves.flatMap_right _
      exact ⟨⟨tail, htail, fun _ => ⟨c, out, hc, hout, hsql, hsame, hleaves⟩,
        fun hnil => absurd hnil huses⟩, c.args, hargs, hperm⟩
  · cases hp : s.prepare d t with
    | error e => exact ⟨e, rfl⟩
    | ok p =>
      rw [prepare_eq_template] at hp
      obtain ⟨u, hu, -⟩ := Outcome.map_eq_ok.mp hp
      exact absurd hu (template_of_callFails h hfails u)

/-- A connective and a negation wait for the second test of a DELETE, which ends with it; nothing
stands before a connective. -/
theorem delete_keeps_both_tests :
    (∃ p c out, (Script.delete [.restrict (.test (.raw "a = ?" [.raw (.bool true)])),
        .restrict (.connect .or), .restrict .not,
        .restrict (.test (.raw "b = ?" [.raw .null]))]).prepare .postgresql ⟨"t", [], rfl⟩ = .ok p ∧
      Clause.render .postgresql none c { text := "DELETE FROM \"t\" WHERE " } = .ok out ∧
      p.sql = Text.trimTail out.text ∧ c.leaves.length = 2 ∧
      ∃ args, p.args = args ∧ args ~ [.raw (.bool true), .raw .null]) ∧
    ∃ e, (Script.delete [.restrict (.connect .or), .restrict (.test (.raw "a" []))]).prepare
      .postgresql ⟨"t", [], rfl⟩ = .error e := by
  have hkept := fun calls => conditions_kept .postgresql ⟨"t", [], rfl⟩ (.delete calls) fun h => h
  constructor
  · obtain ⟨p, hp⟩ : ∃ p, (Script.delete [.restrict (.test (.raw "a = ?" [.raw (.bool true)])),
        .restrict (.connect .or), .restrict .not,
        .restrict (.test (.raw "b = ?" [.raw .null]))]).prepare .postgresql ⟨"t", [], rfl⟩ =
      .ok p := ⟨_, rfl⟩
    obtain ⟨⟨tail, htail, used, -⟩, hargs⟩ := (hkept _).1 p hp
    obtain ⟨c, out, -, hout, hsql, -, hleaves⟩ := used nofun
    cases htail
    rw [String.append_empty] at hsql
    exact ⟨p, c, out, hp, hout, hsql, hleaves.length_eq, hargs⟩
  · exact (hkept _).2 ⟨[], _, _, rfl, by simp [Where.failure?]⟩

end Script

end Relmap
