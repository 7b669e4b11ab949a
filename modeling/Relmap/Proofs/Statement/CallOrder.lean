import Relmap.Proofs.Statement.Comparable

/-!
# The order of arguments

The arguments of a finished condition are the ones that the caller wrote. Whether they stand in the
order of the calls is decided by the stacks. A connective takes the last condition as its left
operand and waits; whatever is taken from the stack while it waits was added before that operand
and comes to stand after it. If no call does that (`Where.overtakes`), each call adds its arguments
at the end (`Where.Step.standing`). If a call does, two arguments change places, and they keep the
wrong places to the end, because a condition is never taken apart again (`Where.Turned`).

The main statement is `Where.args_in_call_order`.
-/

namespace Relmap

open scoped List
open Outcome

/-! ### What the caller writes -/

namespace Table

variable {t : Table} {f : Field} {c : Clause}

/-- The arguments that operands become next to a column. An operand that is a column is none. -/
def operandArgs (t : Table) (column : String) (operands : List Operand) : List Argument :=
  match t.field? column with
  | some f => operands.filterMap fun o => (o.argument f).toOption
  | none => []

/-- The arguments that are written in a test, in order: its values, or those of its query or of its
piece of SQL. -/
def written (t : Table) : Test → List Argument
  | .compare _ column o => t.operandArgs column [o]
  | .idEquals o =>
    match t.idField? with
    | some f => t.operandArgs f.column [o]
    | none => []
  | .between column low high => t.operandArgs column [low, high]
  | .inList column operands _ => t.operandArgs column operands
  | .inQuery _ query _ | .nonempty query _ => query.args
  | .null _ _ => []
  | .raw _ args => args
  | .compareRaw _ _ v => [.raw v]

/-- The arguments that are written in a call. -/
def writtenIn (t : Table) : WhereCall → List Argument
  | .test x => t.written x
  | .connect _ | .not | .combine _ _ => []

theorem operandArgs_eq {column : String} (h : t.comparable column = .ok f)
    (operands : List Operand) :
    t.operandArgs column operands = operands.filterMap fun o => (o.argument f).toOption := by
  obtain ⟨g, known, checked⟩ := bind_eq_ok.mp h
  have same : g = f := by
    split at checked
    · exact pure_eq_ok.mp checked
    · cases checked
  rw [operandArgs, field_eq_ok.mp known, same]

theorem filterMap_of_mapM {operands : List Operand} {args : List Argument}
    (h : operands.mapM (fun o => o.argument f) = .ok args) :
    operands.filterMap (fun o => (o.argument f).toOption) = args := by
  calc operands.filterMap (fun o => (o.argument f).toOption)
      = (operands.map fun o => o.argument f).filterMap Except.toOption := by
        rw [List.filterMap_map]
        rfl
    _ = (args.map Except.ok).filterMap Except.toOption := by rw [mapM_eq_ok.mp h]
    _ = args := by
        rw [List.filterMap_map]
        exact List.filterMap_some

/-- The right side of a comparison holds the argument of its operand, if that is one. -/
theorem args_of_rhs {o : Operand} {r : Rhs} (h : t.rhs f o = .ok r) (column operator : String) :
    (Leaf.compare column operator r).args = [o].filterMap fun o => (o.argument f).toOption := by
  cases o with
  | value v | late v =>
    obtain ⟨a, argument, h⟩ := bind_eq_ok.mp h
    rw [← pure_eq_ok.mp h]
    simp [Leaf.args, argument, Except.toOption]
  | column other =>
    have same : r = .column other := by
      unfold rhs at h
      dsimp only at h
      split at h
      · obtain ⟨_, -, h⟩ := bind_eq_ok.mp h
        exact (pure_eq_ok.mp h).symm
      · exact (pure_eq_ok.mp h).symm
    rw [same]
    rfl

theorem args_of_compare {op : CompareOp} {column : String} {o : Operand}
    (h : t.compare op column o = .ok c) : c.args = t.operandArgs column [o] := by
  obtain ⟨f, checked, h⟩ := bind_eq_ok.mp h
  obtain ⟨r, right, h⟩ := bind_eq_ok.mp h
  rw [← pure_eq_ok.mp h, operandArgs_eq checked]
  exact args_of_rhs right column op.symbol

/-- **The condition of a test has the arguments that are written in the test.** -/
theorem args_of_clause {x : Test} (h : t.clause x = .ok c) : c.args = t.written x := by
  cases x with
  | compare op column o => exact args_of_compare h
  | idEquals o =>
    cases id : t.idField? with
    | some f =>
      rw [clause, id] at h
      rw [written, id]
      exact args_of_compare h
    | none =>
      rw [clause, id] at h
      cases h
  | between column low high =>
    obtain ⟨f, checked, h⟩ := bind_eq_ok.mp h
    obtain ⟨a, first, h⟩ := bind_eq_ok.mp h
    obtain ⟨b, second, h⟩ := bind_eq_ok.mp h
    have both : [low, high].mapM (fun o => o.argument f) = .ok [a, b] := by
      rw [List.mapM_cons, first, List.mapM_cons, second]
      rfl
    rw [← pure_eq_ok.mp h, written, operandArgs_eq checked, filterMap_of_mapM both]
    rfl
  | inList column operands negated =>
    obtain ⟨f, checked, h⟩ := bind_eq_ok.mp h
    obtain ⟨args, each, h⟩ := bind_eq_ok.mp h
    rw [written, operandArgs_eq checked, filterMap_of_mapM each]
    cases args with
    | nil => cases h
    | cons a rest =>
      cases h
      rfl
  | inQuery column query negated =>
    cases makes_of_clause h
    rfl
  | null column negated =>
    cases makes_of_clause h
    rfl
  | nonempty query negated =>
    cases makes_of_clause h <;> rfl
  | raw sql args =>
    cases makes_of_clause h
    rfl
  | compareRaw column operator v =>
    cases makes_of_clause h
    rfl

end Table

/-! ### Arguments on the stacks -/

theorem Clause.allArgs_eq_flatMap (cs : List Clause) :
    Clause.allArgs cs = cs.flatMap Clause.args := by
  induction cs with
  | nil => rfl
  | cons c rest ih => rw [Clause.allArgs, ih, List.flatMap_cons]

namespace Pending

/-- The arguments of a waiting part. -/
def args : Pending → List Argument
  | .connective _ left => left.args
  | .not => []

/-- Whether a waiting part is a connective. -/
def isConnective : Pending → Bool
  | .connective _ _ => true
  | .not => false

theorem args_join (c : Clause) (p : Pending) : (p.join c).args = p.args ++ c.args := by
  cases p with
  | connective op left => simp [join, args, Clause.args, Clause.allArgs]
  | not => simp [join, args, Clause.args]

/-- What waits comes before the next condition, the part that waits longest first. -/
theorem args_foldl_join (ps : List Pending) (c : Clause) :
    (ps.foldl join c).args = ps.reverse.flatMap args ++ c.args := by
  induction ps generalizing c with
  | nil => rfl
  | cons p rest ih =>
    rw [List.foldl_cons, ih, args_join, List.reverse_cons, List.flatMap_append,
      List.flatMap_singleton, List.append_assoc]

end Pending

/-- Whether a call takes conditions from the stack. -/
def WhereCall.takes : WhereCall → Bool
  | .connect _ | .combine _ _ => true
  | .test _ | .not => false

namespace Where

/-- The arguments of what waits. -/
def waiting (w : Where) : List Argument := w.pending.reverse.flatMap Pending.args

/-- The arguments on the stacks, in the order in which they are going to stand. -/
def standing (w : Where) : List Argument := w.clauses.reverse.flatMap Clause.args ++ w.waiting

/-- Whether a connective waits for its right operand. -/
def waits (w : Where) : Bool := w.pending.any Pending.isConnective

/-- Whether some call takes conditions from the stack while a connective waits. -/
def overtakes (w : Where) : List WhereCall → Bool
  | [] => false
  | call :: rest => (w.waits && call.takes) || (w.apply call).overtakes rest

variable {w w' : Where} {call : WhereCall} {calls : List WhereCall} {c : Clause} {x y : Argument}

/-- Another part waits after those that waited before. -/
theorem waiting_cons (w : Where) (cs : List Clause) (p : Pending) :
    ({ w with clauses := cs, pending := p :: w.pending } : Where).waiting =
      w.waiting ++ p.args := by
  simp [waiting]

theorem waiting_of_not_waits (h : w.waits = false) : w.waiting = [] := by
  rw [waiting, List.flatMap_eq_nil_iff]
  intro p hp
  have hnot := List.any_eq_false.mp h p (List.mem_reverse.mp hp)
  cases p with
  | connective op left => exact absurd rfl hnot
  | not => rfl

/-- Everything that waits comes before a condition that is added. -/
theorem args_add (w : Where) (c : Clause) :
    (w.pending.foldl Pending.join c).args = w.waiting ++ c.args :=
  Pending.args_foldl_join w.pending c

/-- A condition that is added stands at the end. -/
theorem standing_add (w : Where) (c : Clause) : (w.add c).standing = w.standing ++ c.args := by
  simp [standing, add, waiting, Pending.args_foldl_join]

/-- The first of the conditions that are put together comes from the stack. -/
theorem mem_of_take {count : Nat} {rest : List Clause}
    (h : (w.clauses.take count).reverse = c :: rest) : c ∈ w.clauses :=
  List.mem_of_mem_take (List.mem_reverse.mp (h ▸ List.mem_cons_self))

theorem args_many (op : Connective) {a b : Clause} {rest cs : List Clause}
    (h : cs.reverse = a :: b :: rest) :
    (Clause.many op a b rest).args = cs.reverse.flatMap Clause.args := by
  rw [h, Clause.args, Clause.allArgs_eq_flatMap, List.flatMap_cons, List.flatMap_cons,
    List.append_assoc]

/-- **A call adds its arguments at the end**, if it does not take conditions while a connective
waits. -/
theorem Step.standing (h : Step w call w') (fine : w.failure? call = none)
    (inOrder : (w.waits && call.takes) = false) :
    w'.standing = w.standing ++ w.table.writtenIn call := by
  cases h with
  | fail h =>
    rw [h] at fine
    cases fine
  | @test t c h => rw [standing_add, Table.args_of_clause h, Table.writtenIn]
  | @connect op left rest h =>
    have empty := waiting_of_not_waits (Bool.and_true w.waits ▸ inOrder)
    rw [Where.standing, waiting_cons, Where.standing, empty, h]
    simp [Pending.args, Table.writtenIn]
  | not =>
    rw [Where.standing, w.waiting_cons w.clauses .not, Where.standing, Table.writtenIn]
    simp [Pending.args]
  | @combine op count a b rest hcount h =>
    have empty := waiting_of_not_waits (Bool.and_true w.waits ▸ inOrder)
    have kept : ({ w with clauses := w.clauses.drop count } : Where).waiting = [] := empty
    have split : w.clauses.reverse =
        (w.clauses.drop count).reverse ++ (w.clauses.take count).reverse := by
      rw [← List.reverse_append, List.take_append_drop]
    rw [standing_add, args_many op h, Where.standing, Where.standing, kept, empty, split,
      List.flatMap_append]
    simp [Table.writtenIn]

/-- The arguments of a run in which no call fails stand in the order of the calls, if no call
overtakes. -/
theorem standing_run (fine : (w.run calls).fault = none) (inOrder : w.overtakes calls = false) :
    (w.run calls).standing = w.standing ++ calls.flatMap w.table.writtenIn := by
  induction calls generalizing w with
  | nil => simp
  | cons call rest ih =>
    obtain ⟨first, others⟩ := Bool.or_eq_false_iff.mp inOrder
    have step := step_apply w call
    have one := step.standing (failure?_eq_none_of_run fine) first
    rw [run_cons, ih fine others, one, step.table, List.flatMap_cons, List.append_assoc]

/-! ### Arguments that changed places -/

/-- An argument stands after another one, in one condition or in what waits. Nothing takes them
apart again. -/
def Turned (w : Where) (x y : Argument) : Prop :=
  (∃ c ∈ w.clauses, [y, x] <+ c.args) ∨ [y, x] <+ w.waiting

theorem sublist_args_of_mem {cs : List Clause} (h : c ∈ cs) : c.args <+ cs.flatMap Clause.args := by
  rw [List.flatMap_def]
  exact List.sublist_flatten_of_mem (List.mem_map_of_mem h)

theorem Turned.add (h : w.Turned x y) (c : Clause) : (w.add c).Turned x y := by
  rcases h with ⟨c', hc', turned⟩ | turned
  · exact .inl ⟨c', List.mem_cons_of_mem _ hc', turned⟩
  · refine .inl ⟨_, List.mem_cons_self, ?_⟩
    rw [args_add]
    exact turned.trans (List.sublist_append_left _ _)

/-- **What changed places stays so.** -/
theorem Step.turned (h : Step w call w') (turned : w.Turned x y) : w'.Turned x y := by
  cases h with
  | fail _ => exact turned
  | @test t c h => exact turned.add c
  | @connect op left rest h =>
    have waits := w.waiting_cons rest (.connective op left)
    rcases turned with ⟨c, hc, turned⟩ | turned
    · rw [h] at hc
      rcases List.mem_cons.mp hc with rfl | hc
      · refine .inr ?_
        rw [waits]
        exact turned.trans (List.sublist_append_right _ _)
      · exact .inl ⟨c, hc, turned⟩
    · refine .inr ?_
      rw [waits]
      exact turned.trans (List.sublist_append_left _ _)
  | not =>
    rw [Turned, w.waiting_cons w.clauses .not, Pending.args, List.append_nil]
    exact turned
  | @combine op count a b rest hcount h =>
    rcases turned with ⟨c, hc, turned⟩ | turned
    · rw [← List.take_append_drop count w.clauses] at hc
      rcases List.mem_append.mp hc with hc | hc
      · refine .inl ⟨_, List.mem_cons_self, ?_⟩
        rw [args_add, args_many op h]
        have inside := sublist_args_of_mem (List.mem_reverse.mpr hc)
        exact (turned.trans inside).trans (List.sublist_append_right _ _)
      · exact .inl ⟨c, List.mem_cons_of_mem _ hc, turned⟩
    · have kept : ({ w with clauses := w.clauses.drop count } : Where).Turned x y := .inr turned
      exact kept.add _

theorem turned_run (turned : w.Turned x y) (calls : List WhereCall) : (w.run calls).Turned x y := by
  induction calls generalizing w with
  | nil => exact turned
  | cons call rest ih => exact ih ((step_apply w call).turned turned)

/-! ### Calls that overtake -/

/-- Every condition on the stacks has an argument. -/
structure Filled (w : Where) : Prop where
  clauses : ∀ c ∈ w.clauses, c.args ≠ []
  pending : ∀ op left, .connective op left ∈ w.pending → left.args ≠ []

theorem Filled.add (filled : w.Filled) (hc : c.args ≠ []) : (w.add c).Filled where
  clauses c' hc' := by
    rcases List.mem_cons.mp hc' with rfl | hc'
    · rw [args_add]
      exact List.append_ne_nil_of_right_ne_nil _ hc
    · exact filled.clauses c' hc'
  pending _ _ h := nomatch h

/-- The conditions on the stacks stay with an argument, if each test has one. -/
theorem Step.filled (h : Step w call w') (each : ∀ x, call = .test x → w.table.written x ≠ [])
    (filled : w.Filled) : w'.Filled := by
  cases h with
  | fail _ => exact ⟨filled.clauses, filled.pending⟩
  | @test t c h =>
    refine filled.add ?_
    rw [Table.args_of_clause h]
    exact each t rfl
  | @connect op left rest h =>
    have clauses := filled.clauses
    rw [h] at clauses
    refine ⟨fun c hc => clauses c (List.mem_cons_of_mem _ hc), fun op' left' hp => ?_⟩
    rcases List.mem_cons.mp hp with same | hp
    · cases same
      exact clauses left List.mem_cons_self
    · exact filled.pending op' left' hp
  | not =>
    refine ⟨filled.clauses, fun op left hp => ?_⟩
    rcases List.mem_cons.mp hp with same | hp
    · cases same
    · exact filled.pending op left hp
  | @combine op count a b rest hcount h =>
    have kept : ({ w with clauses := w.clauses.drop count } : Where).Filled :=
      ⟨fun c hc => filled.clauses c (List.mem_of_mem_drop hc), filled.pending⟩
    refine kept.add ?_
    rw [Clause.args, List.append_assoc]
    exact List.append_ne_nil_of_left_ne_nil (filled.clauses a (mem_of_take h)) _

/-- **A call that overtakes makes two arguments change places.** -/
theorem Step.turns (h : Step w call w') (fine : w.failure? call = none) (filled : w.Filled)
    (overtaking : (w.waits && call.takes) = true) :
    ∃ x y, [x, y] <+ w.standing ∧ w'.Turned x y := by
  obtain ⟨waits, takes⟩ := (Bool.and_eq_true _ _).mp overtaking
  obtain ⟨p, hp, connective⟩ := List.any_eq_true.mp waits
  obtain ⟨op, left, rfl⟩ : ∃ op left, p = .connective op left := by
    cases p with
    | connective op left => exact ⟨op, left, rfl⟩
    | not => cases connective
  -- `y` waits, and `x` is in the condition that is taken, which was added before.
  obtain ⟨y, hy⟩ := List.exists_mem_of_ne_nil _ (filled.pending op left hp)
  have late : y ∈ w.waiting :=
    List.mem_flatMap.mpr ⟨_, List.mem_reverse.mpr hp, hy⟩
  have ordered {c : Clause} (hc : c ∈ w.clauses) {x : Argument} (hx : x ∈ c.args) :
      [x, y] <+ w.standing :=
    have early : x ∈ w.clauses.reverse.flatMap Clause.args :=
      List.mem_flatMap.mpr ⟨c, List.mem_reverse.mpr hc, hx⟩
    (List.singleton_sublist.mpr early).append (List.singleton_sublist.mpr late)
  have reversed {x : Argument} {l : List Argument} (hx : x ∈ l) : [y, x] <+ w.waiting ++ l :=
    (List.singleton_sublist.mpr late).append (List.singleton_sublist.mpr hx)
  cases h with
  | fail h =>
    rw [h] at fine
    cases fine
  | test _ => cases takes
  | not => cases takes
  | @connect op' top rest h =>
    have htop : top ∈ w.clauses := h ▸ List.mem_cons_self
    obtain ⟨x, hx⟩ := List.exists_mem_of_ne_nil _ (filled.clauses top htop)
    refine ⟨x, y, ordered htop hx, .inr ?_⟩
    rw [w.waiting_cons rest (.connective op' top)]
    exact reversed hx
  | @combine op' count a b rest hcount h =>
    have ha := mem_of_take h
    obtain ⟨x, hx⟩ := List.exists_mem_of_ne_nil _ (filled.clauses a ha)
    refine ⟨x, y, ordered ha hx, .inl ⟨_, List.mem_cons_self, ?_⟩⟩
    rw [args_add]
    refine reversed ?_
    rw [Clause.args, List.append_assoc]
    exact List.mem_append_left _ hx

/-- After a run in which a call overtakes, two arguments stand the other way round than the caller
wrote them. -/
theorem exists_turned_run (fine : (w.run calls).fault = none) (filled : w.Filled)
    (each : ∀ x, WhereCall.test x ∈ calls → w.table.written x ≠ [])
    (overtaking : w.overtakes calls = true) :
    ∃ x y, [x, y] <+ w.standing ++ calls.flatMap w.table.writtenIn ∧ (w.run calls).Turned x y := by
  induction calls generalizing w with
  | nil => cases overtaking
  | cons call rest ih =>
    have step := step_apply w call
    have ok := failure?_eq_none_of_run fine
    cases first : w.waits && call.takes with
    | true =>
      obtain ⟨x, y, ordered, turned⟩ := step.turns ok filled first
      exact ⟨x, y, ordered.trans (List.sublist_append_left _ _), turned_run turned rest⟩
    | false =>
      rw [overtakes, first, Bool.false_or] at overtaking
      have filled := step.filled (fun x hx => each x (hx ▸ List.mem_cons_self)) filled
      obtain ⟨x, y, ordered, turned⟩ := ih fine filled
        (fun x hx => step.table ▸ each x (List.mem_cons_of_mem _ hx)) overtaking
      rw [step.standing ok first, step.table, List.append_assoc, ← List.flatMap_cons] at ordered
      exact ⟨x, y, ordered, turned⟩

end Where

/-- Two members of a list without repetitions stand in it one way only. -/
theorem not_sublist_swap {α : Type} {l : List α} {x y : α} (distinct : l.Nodup)
    (h : [x, y] <+ l) : ¬[y, x] <+ l := by
  induction l with
  | nil => cases h
  | cons a l ih =>
    obtain ⟨fresh, distinct⟩ := List.nodup_cons.mp distinct
    intro swapped
    have inside {b c : α} (h : [b, c] <+ a :: l) : c ∈ l := by
      cases h with
      | cons _ h => exact h.subset (by simp)
      | cons_cons _ h => exact h.subset (by simp)
    have rest {b c : α} (h : [b, c] <+ a :: l) (hb : b ∈ l) : [b, c] <+ l := by
      cases h with
      | cons _ h => exact h
      | cons_cons _ h => exact absurd hb fresh
    exact ih distinct (rest h (inside swapped)) (rest swapped (inside h))

namespace Where

/-- The arguments of the tests that calls add are the ones written in the calls. -/
theorem flatMap_args_leaves {w : Where} {calls : List WhereCall}
    (fine : (w.run calls).fault = none) :
    (calls.flatMap (WhereCall.leaves w.table)).flatMap Clause.args =
      calls.flatMap w.table.writtenIn := by
  rw [List.flatMap_assoc]
  refine List.flatMap_congr fun call hcall => ?_
  cases call with
  | test x =>
    obtain ⟨c, made⟩ := exists_clause_of_mem_run fine hcall
    rw [WhereCall.leaves, made, Table.writtenIn, ← Table.args_of_clause made]
    exact c.args_eq_leaves.symm
  | connect op | not | combine op count => rfl

/-- **Arguments come out in the order of the calls**, as long as no call takes conditions while a
connective waits. The arguments that a condition writes are always the ones that were written in its
calls. They are in the order of the calls if no call overtakes; if one does, and each test has an
argument, and no argument is there twice, they are not. -/
theorem args_in_call_order {d : Dialect} {t : Table} {calls : List WhereCall} {q : Option String}
    {draft out : Draft}
    (h : (run { dialect := d, table := t } calls).render q draft = .ok out) :
    ∃ args, out.args = draft.args ++ args ∧ args ~ calls.flatMap t.writtenIn ∧
      (overtakes { dialect := d, table := t } calls = false →
        args = calls.flatMap t.writtenIn) ∧
      (overtakes { dialect := d, table := t } calls = true →
        (∀ x, WhereCall.test x ∈ calls → t.written x ≠ []) →
        (calls.flatMap t.writtenIn).Nodup → args ≠ calls.flatMap t.writtenIn) := by
  obtain ⟨c, finished, written⟩ := bind_eq_ok.mp h
  obtain ⟨fine, pending, only⟩ := of_clause_eq_ok finished
  have standing : (run { dialect := d, table := t } calls).standing = c.args := by
    simp [Where.standing, waiting, pending, only]
  refine ⟨c.args, ?_, ?_, fun inOrder => ?_, fun overtaking each distinct same => ?_⟩
  · rw [dialect_run, c.writes_template d q draft] at written
    obtain ⟨v, hv, rfl⟩ := map_eq_ok.mp written
    rw [← c.args_template d q v hv]
    rfl
  · rw [c.args_eq_leaves, ← flatMap_args_leaves fine]
    exact (leaves_clause_run finished).flatMap_right _
  · have run := standing_run fine inOrder
    rwa [standing] at run
  · obtain ⟨x, y, ordered, turned⟩ := exists_turned_run fine ⟨by simp, by simp⟩ each overtaking
    have swapped : [y, x] <+ c.args := by
      rcases turned with ⟨c', hc', swapped⟩ | swapped
      · rw [only, List.mem_singleton] at hc'
        rwa [hc'] at swapped
      · simp [waiting, pending] at swapped
    rw [same] at swapped
    exact not_sublist_swap distinct ordered swapped

/-- A table with a numeric and a textual column. -/
def people : TableDecl :=
  ⟨"person", [{ name := "id", type := .long }, { name := "name", type := .string }]⟩

/-- A connective and a negation wait for the second test; in the end two conditions are put
together. -/
def grouped : List WhereCall :=
  [.test (.compare .eq "id" (.value (.int 1))), .connect .and, .not,
    .test (.compare .like "name" (.value (.text "a"))),
    .test (.inList "id" [.value (.int 2), .late none] false), .combine .or 2]

/-- Two conditions are taken one after the other as left operands of connectives that wait for the
third one. -/
def crossed : List WhereCall :=
  [.test (.compare .eq "id" (.value (.long 1))), .test (.compare .eq "id" (.value (.long 2))),
    .connect .and, .connect .and, .test (.compare .eq "id" (.value (.long 3)))]

theorem grouped_tests_in_call_order : ∃ t out,
    people.toTable .sqlite = .ok t ∧
    (run { dialect := .sqlite, table := t } grouped).render none {} = .ok out ∧
    out.args = grouped.flatMap t.writtenIn := by
  obtain ⟨t, out, table, inOrder, written⟩ : ∃ t out,
      people.toTable .sqlite = .ok t ∧
      overtakes { dialect := .sqlite, table := t } grouped = false ∧
      (run { dialect := .sqlite, table := t } grouped).render none {} = .ok out :=
    ⟨_, _, rfl, rfl, rfl⟩
  obtain ⟨args, appended, -, same, -⟩ := args_in_call_order written
  refine ⟨t, out, table, written, ?_⟩
  rw [appended, same inOrder]
  rfl

/-- The argument of the second test of `crossed` comes first. -/
theorem second_test_first : ∃ t out,
    people.toTable .sqlite = .ok t ∧
    (run { dialect := .sqlite, table := t } crossed).render none {} = .ok out ∧
    out.args.map Argument.value = [some (.long 2), some (.long 1), some (.long 3)] ∧
    out.args ≠ crossed.flatMap t.writtenIn := by
  refine ⟨_, _, rfl, rfl, rfl, fun same => ?_⟩
  have values := congrArg (List.map Argument.value) same
  cases values

end Where

end Relmap
