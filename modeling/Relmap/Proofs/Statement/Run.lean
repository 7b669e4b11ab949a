import Relmap.Proofs.Outcome
import Relmap.Statement.Where

/-!
# Runs of calls on a condition

What a test makes (`Table.makes_of_clause`), and what one call can do to a condition while it is put
together (`Where.step_apply`): it fails or not (`Where.failure?`), a failure is kept if it is the
first one (`Where.Step.fault`), and the dialect and the table stay. Over a run of calls, a call that
failed is never forgotten (`Where.fault_run_of_callFails`).
-/

namespace Relmap

/-! ### Tests -/

/-- What a test makes, if nothing is wrong with it. -/
inductive Test.Makes : Test → Clause → Prop
  | compare {op : CompareOp} {column : String} {o : Operand} (r : Rhs) :
    Makes (.compare op column o) (.compare column op r)
  | idEquals {o : Operand} (column : String) (r : Rhs) : Makes (.idEquals o) (.compare column .eq r)
  | between {column : String} {low high : Operand} (a b : Argument) :
    Makes (.between column low high) (.leaf (.between column a b))
  | inList {column : String} {operands : List Operand} {negated : Bool} (a : Argument)
      (rest : List Argument) :
    Makes (.inList column operands negated) (.leaf (.inList column a rest negated))
  | inQuery {column : String} {query : SubQuery} {negated : Bool} (h : query.width = 1) :
    Makes (.inQuery column query negated) (.inQuery column query negated)
  | null {column : String} {negated : Bool} :
    Makes (.null column negated) (.leaf (.null column negated))
  | nonempty {query : SubQuery} : Makes (.nonempty query false) (.nonempty query)
  | empty {query : SubQuery} : Makes (.nonempty query true) (.not (.nonempty query))
  | raw {sql : String} {args : List Argument} : Makes (.raw sql args) (.leaf (.raw sql args))
  | compareRaw {column operator : String} {v : Value} :
    Makes (.compareRaw column operator v) (.leaf (.compare column operator (.argument (.raw v))))

theorem Table.exists_of_compare {t : Table} {op : CompareOp} {column : String} {o : Operand}
    {c : Clause} (h : t.compare op column o = .ok c) : ∃ r, c = .compare column op r := by
  simp only [compare, Outcome.bind_eq_ok, Outcome.pure_eq_ok] at h
  obtain ⟨f, -, r, -, rfl⟩ := h
  exact ⟨r, rfl⟩

/-- The condition of a test is the one that the test makes. -/
theorem Table.makes_of_clause {t : Table} {x : Test} {c : Clause} (h : t.clause x = .ok c) :
    x.Makes c := by
  cases x with
  | compare op column o =>
    obtain ⟨r, rfl⟩ := exists_of_compare h
    exact .compare r
  | idEquals o =>
    simp only [clause] at h
    split at h
    · obtain ⟨r, rfl⟩ := exists_of_compare h
      exact .idEquals _ r
    · cases h
  | between column low high =>
    simp only [clause, Outcome.bind_eq_ok, Outcome.pure_eq_ok] at h
    obtain ⟨f, -, a, -, b, -, rfl⟩ := h
    exact .between a b
  | inList column operands negated =>
    simp only [clause, Outcome.bind_eq_ok] at h
    obtain ⟨f, -, args, -, h⟩ := h
    cases args with
    | nil => cases h
    | cons a rest =>
      cases h
      exact .inList a rest
  | inQuery column query negated =>
    simp only [clause, Outcome.bind_eq_ok, Clause.ofQuery] at h
    obtain ⟨_, -, h⟩ := h
    split at h
    · rename_i hwidth
      cases h
      exact .inQuery hwidth
    · cases h
  | null column negated =>
    simp only [clause, Outcome.bind_eq_ok, Outcome.pure_eq_ok] at h
    obtain ⟨_, -, rfl⟩ := h
    exact .null
  | nonempty query negated =>
    cases h
    cases negated with
    | false => exact .nonempty
    | true => exact .empty
  | raw sql args =>
    cases h
    exact .raw
  | compareRaw column operator v =>
    cases h
    exact .compareRaw

/-! ### Calls -/

namespace Where

/-- What goes wrong in a call, if anything does. -/
def failure? (w : Where) : WhereCall → Option Failure
  | .test t =>
    match w.table.clause t with
    | .ok _ => none
    | .error e => some e
  | .connect op => if w.clauses = [] then some (.statement (.nothingBefore op.call)) else none
  | .not => none
  | .combine _ count =>
    if count < 2 ∨ w.clauses.length < count then
      some (.statement (.cannotCombine count w.clauses.length))
    else none

/-- What a call does: it fails, or it is one of the four calls and has what it needs. -/
inductive Step (w : Where) : WhereCall → Where → Prop
  | fail {call : WhereCall} {e : Failure} (h : w.failure? call = some e) : Step w call (w.fail e)
  | test {t : Test} {c : Clause} (h : w.table.clause t = .ok c) : Step w (.test t) (w.add c)
  | connect {op : Connective} {left : Clause} {rest : List Clause} (h : w.clauses = left :: rest) :
    Step w (.connect op) { w with clauses := rest, pending := .connective op left :: w.pending }
  | not : Step w .not { w with pending := .not :: w.pending }
  | combine {op : Connective} {count : Nat} {a b : Clause} {rest : List Clause}
      (hcount : ¬(count < 2 ∨ w.clauses.length < count))
      (h : (w.clauses.take count).reverse = a :: b :: rest) :
    Step w (.combine op count) ({ w with clauses := w.clauses.drop count }.add (.many op a b rest))

/-- The last conditions are at least two if at least two are asked for and there are as many. -/
theorem exists_last_conditions {cs : List Clause} {count : Nat}
    (h : ¬(count < 2 ∨ cs.length < count)) :
    ∃ a b rest, (cs.take count).reverse = a :: b :: rest := by
  have hlen : (cs.take count).reverse.length = count := by
    rw [List.length_reverse, List.length_take]
    omega
  match hcs : (cs.take count).reverse with
  | a :: b :: rest => exact ⟨a, b, rest, rfl⟩
  | [_] | [] =>
    rw [hcs] at hlen
    simp only [List.length_cons, List.length_nil] at hlen
    omega

/-- A call does what `Step` says. -/
theorem step_apply (w : Where) (call : WhereCall) : Step w call (w.apply call) := by
  cases call with
  | test t =>
    simp only [apply, test]
    cases h : w.table.clause t with
    | ok c => exact .test h
    | error e => exact .fail (by simp [failure?, h])
  | connect op =>
    simp only [apply, connect]
    cases h : w.clauses with
    | nil => exact .fail (by simp [failure?, h])
    | cons left rest => exact .connect h
  | not => exact .not
  | combine op count =>
    simp only [apply, combine]
    by_cases hcount : count < 2 ∨ w.clauses.length < count
    · rw [if_pos hcount]
      exact .fail (if_pos hcount)
    · obtain ⟨a, b, rest, h⟩ := exists_last_conditions hcount
      rw [if_neg hcount, h]
      exact .combine hcount h

/-- **The first failure is kept.** -/
theorem Step.fault {w w' : Where} {call : WhereCall} (h : Step w call w') :
    w'.fault = (w.fault <|> w.failure? call) := by
  cases h with
  | fail h => rw [h]; rfl
  | test h => simp [failure?, h, add]
  | connect h => simp [failure?, h]
  | not => simp [failure?]
  | @combine op count _ _ _ hcount h =>
    have hnone : w.failure? (.combine op count) = none := if_neg hcount
    rw [hnone]
    change w.fault = _
    cases w.fault <;> rfl

theorem Step.table {w w' : Where} {call : WhereCall} (h : Step w call w') : w'.table = w.table := by
  cases h <;> rfl

theorem Step.dialect {w w' : Where} {call : WhereCall} (h : Step w call w') :
    w'.dialect = w.dialect := by
  cases h <;> rfl

/-! ### Runs -/

@[simp] theorem run_nil (w : Where) : w.run [] = w := rfl

@[simp] theorem run_cons (w : Where) (call : WhereCall) (calls : List WhereCall) :
    w.run (call :: calls) = (w.apply call).run calls := rfl

@[simp] theorem run_append (w : Where) (first second : List WhereCall) :
    w.run (first ++ second) = (w.run first).run second := List.foldl_append

@[simp] theorem dialect_run (w : Where) (calls : List WhereCall) :
    (w.run calls).dialect = w.dialect := by
  induction calls generalizing w with
  | nil => rfl
  | cons call rest ih => rw [run_cons, ih, (step_apply w call).dialect]

/-- A failure is never forgotten. -/
theorem fault_run_of_fault {w : Where} {e : Failure} (h : w.fault = some e)
    (calls : List WhereCall) :
    (w.run calls).fault = some e := by
  induction calls generalizing w with
  | nil => exact h
  | cons call rest ih => exact ih (by rw [(step_apply w call).fault, h]; rfl)

/-- A call of a run fails. -/
def CallFails (w : Where) (calls : List WhereCall) : Prop :=
  ∃ before call after, calls = before ++ call :: after ∧ (w.run before).failure? call ≠ none

/-- Something went wrong in the end if a call failed. -/
theorem fault_run_of_callFails {w : Where} {calls : List WhereCall} (h : w.CallFails calls) :
    (w.run calls).fault ≠ none := by
  obtain ⟨before, call, after, rfl, hfails⟩ := h
  obtain ⟨e, he⟩ := Option.ne_none_iff_exists'.mp hfails
  rw [run_append, run_cons]
  have hfault : ∃ e', ((w.run before).apply call).fault = some e' := by
    rw [(step_apply _ call).fault, he]
    cases (w.run before).fault with
    | none => exact ⟨e, rfl⟩
    | some e' => exact ⟨e', rfl⟩
  obtain ⟨e', he'⟩ := hfault
  rw [fault_run_of_fault he']
  exact Option.some_ne_none e'

/-- If nothing went wrong in the end, the first call did not fail. -/
theorem failure?_eq_none_of_run {w : Where} {call : WhereCall} {calls : List WhereCall}
    (h : (w.run (call :: calls)).fault = none) : w.failure? call = none := by
  cases hfails : w.failure? call with
  | none => rfl
  | some e => exact absurd h (fault_run_of_callFails ⟨[], call, calls, rfl, by simp [hfails]⟩)

/-- A finished condition is all that is held, and nothing went wrong. -/
theorem of_clause_eq_ok {w : Where} {c : Clause} (h : w.clause = .ok c) :
    w.fault = none ∧ w.pending = [] ∧ w.clauses = [c] := by
  unfold clause at h
  split at h
  · cases h
  · cases h
  · rename_i c' hfault hpending hclauses
    cases h
    exact ⟨hfault, hpending, hclauses⟩
  · cases h
  · cases h

/-! ### Uses -/

/-- The condition of a statement after uses of it, each of which starts the condition if there is
none and makes some calls on it. -/
def used (d : Dialect) (t : Table) (w : Option Where) (uses : List (List WhereCall)) :
    Option Where :=
  uses.foldl (fun w calls => some ((w.getD { dialect := d, table := t }).run calls)) w

theorem used_some (d : Dialect) (t : Table) (w : Where) (uses : List (List WhereCall)) :
    used d t (some w) uses = some (w.run uses.flatten) := by
  induction uses generalizing w with
  | nil => rfl
  | cons calls rest ih =>
    rw [List.flatten_cons, run_append]
    exact ih (w.run calls)

/-- Uses one after another are one run of all their calls. -/
theorem used_none (d : Dialect) (t : Table) {uses : List (List WhereCall)} (h : uses ≠ []) :
    used d t none uses = some (run { dialect := d, table := t } uses.flatten) := by
  obtain ⟨calls, rest, rfl⟩ := List.exists_cons_of_ne_nil h
  rw [List.flatten_cons, run_append]
  exact used_some d t _ rest

end Where

end Relmap
