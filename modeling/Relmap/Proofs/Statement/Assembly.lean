import Mathlib.Logic.Function.Iterate
import Relmap.Proofs.Statement.Meaning
import Relmap.Proofs.Statement.Run

/-!
# What calls put together

Two ways to write a condition as calls, and the condition that comes out of each. What carries both
is that negations which wait are taken up by the next condition before anything that waits below
them (`Pending.foldl_join_nots`).

* In a chain, tests stand one after another with a connective between every two. The condition
  groups to the left, whatever the connectives are (`Where.chain_groups_left`): the left operand of
  each is all that stands before it, and AND does not bind closer than OR.
* In postfix form, the operands of a connective come before it. Every expression has a postfix form,
  and its calls put exactly this expression on the stack (`Where.run_postfix`), so that every
  condition can be put together by calls (`Where.exists_calls_of_clause`).
-/

namespace Relmap

/-! ### Negations in a row -/

/-- Negations that wait are taken up first. -/
theorem Pending.foldl_join_nots (k : Nat) (ps : List Pending) (c : Clause) :
    (List.replicate k Pending.not ++ ps).foldl Pending.join c =
      ps.foldl Pending.join (Clause.not^[k] c) := by
  induction k generalizing c with
  | zero => rfl
  | succ k ih => rw [List.replicate_succ, List.cons_append, List.foldl_cons, ih]; rfl

namespace Where

variable {w : Where} {x : Test} {c : Clause}

theorem run_nots (w : Where) (k : Nat) :
    w.run (List.replicate k .not) = { w with pending := List.replicate k .not ++ w.pending } := by
  induction k generalizing w with
  | zero => rfl
  | succ k ih =>
    have shifted : List.replicate k Pending.not ++ .not :: w.pending =
        List.replicate (k + 1) .not ++ w.pending := by
      rw [List.replicate_succ', List.append_assoc, List.singleton_append]
    rw [List.replicate_succ, run_cons, ih, ← shifted]
    rfl

/-- A condition added after negations is added under them. -/
theorem add_after_nots (w : Where) (k : Nat) (c : Clause) :
    ({ w with pending := List.replicate k .not ++ w.pending } : Where).add c =
      w.add (Clause.not^[k] c) := by
  rw [add, add, Pending.foldl_join_nots]

theorem apply_test (made : w.table.clause x = .ok c) : w.apply (.test x) = w.add c := by
  simp only [apply, test, made]

theorem run_negated (made : w.table.clause x = .ok c) (k : Nat) :
    w.run (List.replicate k .not ++ [.test x]) = w.add (Clause.not^[k] c) := by
  rw [run_append, run_nots, run_cons, run_nil, ← add_after_nots]
  exact apply_test made

end Where

theorem Clause.formula_nots (k i : Nat) (c : Clause) :
    (Clause.not^[k] c).formula i = Formula.not^[k] (c.formula i) := by
  induction k with
  | zero => rfl
  | succ k ih =>
    rw [Function.iterate_succ_apply', Function.iterate_succ_apply', Clause.formula, ih]

theorem Clause.leaves_nots (k : Nat) (c : Clause) : (Clause.not^[k] c).leaves = c.leaves := by
  induction k with
  | zero => rfl
  | succ k ih => rw [Function.iterate_succ_apply', Clause.leaves, ih]

theorem Formula.eval_nots {α τ : Type} (L : Logic τ) (v : α → τ) (k : Nat) (f : Formula α) :
    (Formula.not^[k] f).eval L v = L.not^[k] (f.eval L v) := by
  induction k with
  | zero => rfl
  | succ k ih =>
    rw [Function.iterate_succ_apply', Function.iterate_succ_apply', Formula.eval, ih]

/-- A test makes a condition with one test in it. -/
theorem Test.Makes.length_leaves {x : Test} {c : Clause} (h : x.Makes c) : c.leaves.length = 1 := by
  cases h <;> rfl

/-! ### Chains -/

/-- Two truth values under a connective. -/
def Logic.connect {τ : Type} (L : Logic τ) : Connective → τ → τ → τ
  | .and => L.and
  | .or => L.or

theorem Logic.eval_connect {α τ : Type} (L : Logic τ) (v : α → τ) (op : Connective)
    (f g : Formula α) : (Formula.connect op f g).eval L v = L.connect op (f.eval L v) (g.eval L v) := by
  cases op <;> rfl

/-- A test after negations. -/
structure NegatedTest where
  nots : Nat
  test : Test

/-- A connective and the test after it. -/
structure Link where
  op : Connective
  operand : NegatedTest

/-- Tests with a connective between every two. -/
structure Chain where
  first : NegatedTest
  links : List Link

section

variable {τ : Type} (L : Logic τ) (made : Test → Clause) (v : Nat → τ)

namespace NegatedTest

/-- The calls for a test after negations. -/
def calls (n : NegatedTest) : List WhereCall := List.replicate n.nots .not ++ [.test n.test]

/-- The condition of a test under its negations, from the conditions that tests make. -/
def clause (n : NegatedTest) : Clause := Clause.not^[n.nots] (made n.test)

/-- The value of a test under its negations, where it is number `i`. -/
def value (n : NegatedTest) (i : Nat) : τ :=
  L.not^[n.nots] (((made n.test).formula i).eval L v)

end NegatedTest

namespace Link

def calls (l : Link) : List WhereCall := .connect l.op :: l.operand.calls

/-- The condition with a link after it. -/
def extend (left : Clause) (l : Link) : Clause := .many l.op left (l.operand.clause made) []

/-- The value of what stands before a link together with the link, whose test is number `i`. -/
def extendValue (left : τ) (l : Link × Nat) : τ :=
  L.connect l.1.op left (l.1.operand.value L made v l.2)

end Link

namespace Chain

def calls (c : Chain) : List WhereCall := c.first.calls ++ c.links.flatMap Link.calls

def tests (c : Chain) : List Test := c.first.test :: c.links.map fun l => l.operand.test

/-- The condition of a chain: each link takes all before it as its left operand. -/
def clause (c : Chain) : Clause := c.links.foldl (Link.extend made) (c.first.clause made)

/-- The value of a chain from left to right, where its tests are numbered from zero. -/
def value (c : Chain) : τ :=
  (c.links.zipIdx 1).foldl (Link.extendValue L made v) (c.first.value L made v 0)

end Chain

variable {L made v}

theorem NegatedTest.eval_clause (n : NegatedTest) (i : Nat) :
    ((n.clause made).formula i).eval L v = n.value L made v i := by
  rw [clause, Clause.formula_nots, Formula.eval_nots, value]

namespace Link

variable {t : Table}

theorem eval_extend (l : Link) (left : Clause) :
    ((l.extend made left).formula 0).eval L v =
      extendValue L made v ((left.formula 0).eval L v) (l, left.leaves.length) := by
  rw [extend, Clause.formula, Clause.joinedFormula, Logic.eval_connect, Nat.zero_add,
    NegatedTest.eval_clause, extendValue]

theorem length_leaves_extend {l : Link} (known : t.clause l.operand.test = .ok (made l.operand.test))
    (left : Clause) : (l.extend made left).leaves.length = left.leaves.length + 1 := by
  have one := (Table.makes_of_clause known).length_leaves
  rw [extend, Clause.leaves, NegatedTest.clause, Clause.leaves_nots, List.length_append,
    List.length_append, one, Clause.allLeaves, List.length_nil, Nat.add_zero]

/-- Links after a condition add their values to its value one after another. -/
theorem eval_foldl_extend {links : List Link}
    (known : ∀ l ∈ links, t.clause l.operand.test = .ok (made l.operand.test)) (left : Clause) :
    ((links.foldl (extend made) left).formula 0).eval L v =
      (links.zipIdx left.leaves.length).foldl (extendValue L made v)
        ((left.formula 0).eval L v) := by
  induction links generalizing left with
  | nil => rfl
  | cons l rest ih =>
    obtain ⟨first, others⟩ := List.forall_mem_cons.mp known
    rw [List.foldl_cons, ih others, List.zipIdx_cons, List.foldl_cons, eval_extend,
      length_leaves_extend first]

end Link

end

namespace Where

variable {w : Where} {made : Test → Clause} {left : Clause} {rest : List Clause}

/-- A link takes the last condition as its left operand. -/
theorem run_link (top : w.clauses = left :: rest) (idle : w.pending = []) {l : Link}
    (known : w.table.clause l.operand.test = .ok (made l.operand.test)) :
    w.run l.calls = { w with clauses := l.extend made left :: rest } := by
  let waiting : Where := { w with clauses := rest, pending := [.connective l.op left] }
  have connected : w.apply (.connect l.op) = waiting := by
    rw [apply, connect, top, idle]
  have taken : waiting.run l.operand.calls = waiting.add (l.operand.clause made) :=
    run_negated (w := waiting) known l.operand.nots
  rw [Link.calls, run_cons, connected, taken, add, ← idle]
  rfl

theorem run_links (top : w.clauses = left :: rest) (idle : w.pending = []) {links : List Link}
    (known : ∀ l ∈ links, w.table.clause l.operand.test = .ok (made l.operand.test)) :
    w.run (links.flatMap Link.calls) =
      { w with clauses := links.foldl (Link.extend made) left :: rest } := by
  induction links generalizing w left with
  | nil => rw [List.flatMap_nil, run_nil, List.foldl_nil, ← top]
  | cons l links ih =>
    obtain ⟨first, others⟩ := List.forall_mem_cons.mp known
    rw [List.flatMap_cons, run_append, run_link top idle first, List.foldl_cons]
    exact ih rfl idle others

/-- **A chain groups to the left.** Its calls, each of which succeeds, leave one condition and
nothing that waits. Each connective of it has all that stands before it as its left operand, and the
test after it, under the negations of that test, as its right operand. Under every logic its value
is found from left to right, with AND and OR alike. -/
theorem chain_groups_left {d : Dialect} {t : Table} {chain : Chain} {made : Test → Clause}
    (known : ∀ x ∈ chain.tests, t.clause x = .ok (made x)) :
    run { dialect := d, table := t } chain.calls =
        { dialect := d, table := t, clauses := [chain.clause made] } ∧
      ∀ (τ : Type) (L : Logic τ) (v : Nat → τ),
        ((chain.clause made).formula 0).eval L v = chain.value L made v := by
  obtain ⟨first, others⟩ := List.forall_mem_cons.mp known
  have links : ∀ l ∈ chain.links, t.clause l.operand.test = .ok (made l.operand.test) :=
    fun l hl => others _ (List.mem_map_of_mem hl)
  refine ⟨?_, fun τ L v => ?_⟩
  · have start : run { dialect := d, table := t } chain.first.calls =
        { dialect := d, table := t, clauses := [chain.first.clause made] } :=
      run_negated first chain.first.nots
    rw [Chain.calls, run_append, start]
    exact run_links rfl rfl links
  · have one : (chain.first.clause made).leaves.length = 1 := by
      rw [NegatedTest.clause, Clause.leaves_nots]
      exact (Table.makes_of_clause first).length_leaves
    rw [Chain.clause, Link.eval_foldl_extend links, one, NegatedTest.eval_clause, Chain.value]

/-- A table with a numeric and a textual column. -/
def pets : TableDecl :=
  ⟨"pet", [{ name := "id", type := .long }, { name := "name", type := .string }]⟩

/-- The conditions that tests for null make. -/
def nullMade : Test → Clause
  | .null column negated => .leaf (.null column negated)
  | _ => .leaf (.raw "" [])

theorem exists_pets : ∃ t, pets.toTable .sqlite = .ok t ∧ ∀ negated,
    t.clause (.null "id" negated) = .ok (.leaf (.null "id" negated)) ∧
      t.clause (.null "name" negated) = .ok (.leaf (.null "name" negated)) :=
  ⟨_, rfl, fun _ => ⟨rfl, rfl⟩⟩

/-- The chain of three tests with OR before AND: the AND takes the OR as its left operand. -/
theorem or_before_and_groups_first : ∃ t c, pets.toTable .sqlite = .ok t ∧
    run { dialect := .sqlite, table := t } [.test (.null "id" false), .connect .or, .not,
      .test (.null "name" false), .connect .and, .not, .not, .test (.null "name" true)] =
        { dialect := .sqlite, table := t, clauses := [c] } ∧
    c = .many .and
      (.many .or (.leaf (.null "id" false)) (.not (.leaf (.null "name" false))) [])
      (.not (.not (.leaf (.null "name" true)))) [] ∧
    ∀ v : Nat → Bool, (c.formula 0).eval .boolean v = ((v 0 || !v 1) && !!v 2) := by
  obtain ⟨t, table, nulls⟩ := exists_pets
  have known : ∀ x ∈ (Chain.mk ⟨0, .null "id" false⟩
      [⟨.or, 1, .null "name" false⟩, ⟨.and, 2, .null "name" true⟩]).tests,
      t.clause x = .ok (nullMade x) := by
    simp [Chain.tests, nullMade, nulls]
  obtain ⟨run, value⟩ := chain_groups_left (d := .sqlite) known
  exact ⟨t, _, table, run, rfl, fun v => value Bool .boolean v⟩

end Where

/-! ### Postfix form -/

/-- Tests, negations, and connectives with at least two operands. -/
inductive Expression
  | test (x : Test)
  | not (operand : Expression)
  | many (op : Connective) (first second : Expression) (rest : List Expression)

namespace Expression

mutual

/-- The calls for an expression under so many negations: those of the operands, the negations, and
the connective. -/
def callsUnder (nots : Nat) : Expression → List WhereCall
  | .test x => List.replicate nots .not ++ [.test x]
  | .not operand => callsUnder (nots + 1) operand
  | .many op first second rest =>
    callsUnder 0 first ++ (callsUnder 0 second ++ (allCalls rest ++
      (List.replicate nots .not ++ [.combine op (rest.length + 2)])))

/-- The calls for expressions one after another. -/
def allCalls : List Expression → List WhereCall
  | [] => []
  | e :: rest => callsUnder 0 e ++ allCalls rest

end

/-- The calls for an expression. -/
def calls (e : Expression) : List WhereCall := e.callsUnder 0

mutual

/-- The condition of an expression, from the conditions that tests make. -/
def clause (made : Test → Clause) : Expression → Clause
  | .test x => made x
  | .not operand => .not (clause made operand)
  | .many op first second rest =>
    .many op (clause made first) (clause made second) (clauses made rest)

/-- The conditions of expressions. -/
def clauses (made : Test → Clause) : List Expression → List Clause
  | [] => []
  | e :: rest => clause made e :: clauses made rest

end

mutual

/-- The tests of an expression, from left to right. -/
def tests : Expression → List Test
  | .test x => [x]
  | .not operand => tests operand
  | .many _ first second rest => tests first ++ (tests second ++ allTests rest)

/-- The tests of expressions. -/
def allTests : List Expression → List Test
  | [] => []
  | e :: rest => tests e ++ allTests rest

end

theorem length_clauses (made : Test → Clause) (es : List Expression) :
    (clauses made es).length = es.length := by
  induction es with
  | nil => rfl
  | cons e rest ih => rw [clauses, List.length_cons, ih, List.length_cons]

end Expression

namespace Where

/-- The condition with more on its stack, the last one first. -/
def push (w : Where) (cs : List Clause) : Where := { w with clauses := cs ++ w.clauses }

@[simp] theorem table_push (w : Where) (cs : List Clause) : (w.push cs).table = w.table := rfl

@[simp] theorem pending_push (w : Where) (cs : List Clause) : (w.push cs).pending = w.pending := rfl

theorem push_push (w : Where) (cs ds : List Clause) : (w.push cs).push ds = w.push (ds ++ cs) := by
  rw [push, push, push, List.append_assoc]

theorem add_of_idle {w : Where} (idle : w.pending = []) (c : Clause) : w.add c = w.push [c] := by
  rw [add, push, idle]
  rfl

theorem combine_of_connected {w : Where} {op : Connective} {count : Nat} {c : Clause}
    (enough : ¬(count < 2 ∨ w.clauses.length < count))
    (made : Clause.connected op (w.clauses.take count).reverse = .ok c) :
    w.combine op count = { w with clauses := w.clauses.drop count }.add c := by
  rw [combine, if_neg enough, made]

/-- The last conditions are put under a connective and the negations before it, and the older ones
stay. -/
theorem run_combine {w : Where} (idle : w.pending = []) (op : Connective) (k : Nat) {count : Nat}
    {a b : Clause} {rest : List Clause} (length : rest.length + 2 = count) :
    (w.push (a :: b :: rest).reverse).run (List.replicate k .not ++ [.combine op count]) =
      w.push [Clause.not^[k] (.many op a b rest)] := by
  let waiting : Where :=
    { w.push (a :: b :: rest).reverse with pending := List.replicate k .not ++ w.pending }
  have operands : (a :: b :: rest).reverse.length = count := List.length_reverse.trans length
  have enough : ¬(count < 2 ∨ waiting.clauses.length < count) := by
    show ¬(count < 2 ∨ ((a :: b :: rest).reverse ++ w.clauses).length < count)
    rw [List.length_append, operands]
    omega
  have last : waiting.clauses.take count = (a :: b :: rest).reverse := List.take_left' operands
  have older : waiting.clauses.drop count = w.clauses := List.drop_left' operands
  have made : Clause.connected op (waiting.clauses.take count).reverse = .ok (.many op a b rest) := by
    rw [last, List.reverse_reverse]
    rfl
  have combined : waiting.combine op count =
      ({ w with pending := List.replicate k .not ++ w.pending } : Where).add (.many op a b rest) := by
    rw [combine_of_connected enough made, older]
    rfl
  rw [run_append, run_nots, ← add_of_idle idle, ← add_after_nots, ← combined]
  rfl

end Where

namespace Expression

open Where

variable {made : Test → Clause}

mutual

/-- **The calls for an expression put it on the stack**, under the negations, and leave alone what
is there. -/
theorem run_callsUnder : ∀ (e : Expression) (k : Nat) {w : Where}, w.pending = [] →
    (∀ x ∈ e.tests, w.table.clause x = .ok (made x)) →
      w.run (e.callsUnder k) = w.push [Clause.not^[k] (e.clause made)]
  | .test x, k, w, idle, known => by
    rw [callsUnder, run_negated (known x (List.mem_singleton_self x)), add_of_idle idle, clause]
  | .not operand, k, w, idle, known => by
    rw [callsUnder, run_callsUnder operand (k + 1) idle known]
    rfl
  | .many op first second rest, k, w, idle, known => by
    obtain ⟨left, others⟩ := List.forall_mem_append.mp known
    obtain ⟨right, further⟩ := List.forall_mem_append.mp others
    have one : w.run (callsUnder 0 first) = w.push [clause made first] :=
      run_callsUnder first 0 idle left
    have two : (w.push [clause made first]).run (callsUnder 0 second) =
        w.push [clause made second, clause made first] :=
      run_callsUnder second 0 (w := w.push _) idle right
    have more : (w.push [clause made second, clause made first]).run (allCalls rest) =
        w.push (clause made first :: clause made second :: clauses made rest).reverse := by
      rw [run_allCalls rest (w := w.push _) idle further, push_push, List.reverse_cons,
        List.reverse_cons, List.append_assoc]
      rfl
    have length : (clauses made rest).length + 2 = rest.length + 2 := by rw [length_clauses]
    rw [callsUnder, run_append, one, run_append, two, run_append, more,
      run_combine idle op k length, clause]

/-- Expressions one after another stand on the stack in this order. -/
theorem run_allCalls : ∀ (es : List Expression) {w : Where}, w.pending = [] →
    (∀ x ∈ allTests es, w.table.clause x = .ok (made x)) →
      w.run (allCalls es) = w.push (clauses made es).reverse
  | [], w, _, _ => rfl
  | e :: rest, w, idle, known => by
    obtain ⟨first, others⟩ := List.forall_mem_append.mp known
    have one : w.run (callsUnder 0 e) = w.push [clause made e] := run_callsUnder e 0 idle first
    rw [allCalls, run_append, one, run_allCalls rest (w := w.push _) idle others, push_push, clauses,
      List.reverse_cons]

end

end Expression

namespace Where

variable {w : Where} {made : Test → Clause}

/-- **Every expression is put together from its postfix form.** Where nothing waits and each test
succeeds, the calls of an expression add its condition as the last one, and change neither the older
conditions nor anything else. -/
theorem run_postfix {e : Expression} (idle : w.pending = [])
    (known : ∀ x ∈ e.tests, w.table.clause x = .ok (made x)) :
    w.run e.calls = { w with clauses := e.clause made :: w.clauses } :=
  e.run_callsUnder 0 idle known

/-- A negated connective of three operands and a further operand, above a condition that was there
before. -/
theorem postfix_above_older_condition : ∃ t, pets.toTable .sqlite = .ok t ∧
    run { dialect := .sqlite, table := t, clauses := [.leaf (.null "age" true)] }
      [.test (.null "id" false), .not, .test (.null "name" false), .test (.null "id" true), .not,
        .combine .or 3, .test (.null "name" true), .combine .and 2] =
      { dialect := .sqlite, table := t, clauses :=
        [.many .and
          (.not (.many .or (.leaf (.null "id" false)) (.not (.leaf (.null "name" false)))
            [.leaf (.null "id" true)]))
          (.leaf (.null "name" true)) [],
        .leaf (.null "age" true)] } := by
  obtain ⟨t, table, nulls⟩ := exists_pets
  have known : ∀ x ∈ (Expression.many .and
      (.not (.many .or (.test (.null "id" false)) (.not (.test (.null "name" false)))
        [.test (.null "id" true)])) (.test (.null "name" true)) []).tests,
      t.clause x = .ok (nullMade x) := by
    simp [Expression.tests, Expression.allTests, nulls, nullMade]
  have built := run_postfix
    (w := { dialect := .sqlite, table := t, clauses := [.leaf (.null "age" true)] }) rfl known
  exact ⟨t, table, built⟩

end Where

/-! ### Every condition -/

namespace Expression

variable {made : Test → Clause} {p : Test → Prop}

theorem exists_test_eq {c : Clause} (each : ∃ x, p x ∧ made x = c) :
    ∃ e : Expression, e.clause made = c ∧ ∀ x ∈ e.tests, p x := by
  obtain ⟨x, hx, rfl⟩ := each
  exact ⟨.test x, rfl, List.forall_mem_singleton.mpr hx⟩

mutual

/-- A condition is that of an expression, if its tests are those of tests. -/
theorem exists_clause_eq : ∀ c : Clause, (∀ leaf ∈ c.leaves, ∃ x, p x ∧ made x = leaf) →
    ∃ e : Expression, e.clause made = c ∧ ∀ x ∈ e.tests, p x
  | .leaf l, each => exists_test_eq (each _ (List.mem_singleton_self _))
  | .inQuery column query negated, each => exists_test_eq (each _ (List.mem_singleton_self _))
  | .nonempty query, each => exists_test_eq (each _ (List.mem_singleton_self _))
  | .not operand, each => by
    obtain ⟨e, rfl, he⟩ := exists_clause_eq operand each
    exact ⟨.not e, rfl, he⟩
  | .many op first second rest, each => by
    obtain ⟨operands, further⟩ := List.forall_mem_append.mp each
    obtain ⟨left, right⟩ := List.forall_mem_append.mp operands
    obtain ⟨a, rfl, ha⟩ := exists_clause_eq first left
    obtain ⟨b, rfl, hb⟩ := exists_clause_eq second right
    obtain ⟨es, rfl, hes⟩ := exists_clauses_eq rest further
    exact ⟨.many op a b es, rfl,
      List.forall_mem_append.mpr ⟨ha, List.forall_mem_append.mpr ⟨hb, hes⟩⟩⟩

theorem exists_clauses_eq : ∀ cs : List Clause,
    (∀ leaf ∈ Clause.allLeaves cs, ∃ x, p x ∧ made x = leaf) →
      ∃ es : List Expression, clauses made es = cs ∧ ∀ x ∈ allTests es, p x
  | [], _ => ⟨[], rfl, fun _ hx => nomatch hx⟩
  | c :: rest, each => by
    obtain ⟨one, others⟩ := List.forall_mem_append.mp each
    obtain ⟨e, rfl, he⟩ := exists_clause_eq c one
    obtain ⟨es, rfl, hes⟩ := exists_clauses_eq rest others
    exact ⟨e :: es, rfl, List.forall_mem_append.mpr ⟨he, hes⟩⟩

end

end Expression

/-- **Every condition over tests of a table can be put together by calls.** -/
theorem Where.exists_calls_of_clause (d : Dialect) {t : Table} {c : Clause}
    (each : ∀ leaf ∈ c.leaves, ∃ x, t.clause x = .ok leaf) :
    ∃ calls, run { dialect := d, table := t } calls =
      { dialect := d, table := t, clauses := [c] } := by
  let made (x : Test) : Clause := (t.clause x).toOption.getD (.leaf (.raw "" []))
  have tests : ∀ leaf ∈ c.leaves, ∃ x, t.clause x = .ok (made x) ∧ made x = leaf := by
    intro leaf hleaf
    obtain ⟨x, hx⟩ := each leaf hleaf
    have same : made x = leaf := by simp only [made, hx, Except.toOption, Option.getD_some]
    exact ⟨x, by rw [hx, same], same⟩
  obtain ⟨e, rfl, known⟩ := Expression.exists_clause_eq c tests
  exact ⟨e.calls, e.run_callsUnder 0 rfl known⟩

end Relmap
