import Relmap.Proofs.Statement.Assembly
import Relmap.Proofs.Statement.FirstFailure
import Relmap.Proofs.Statement.Grouping

/-!
# How far a negation reaches

A negation waits for the next condition, and so does a connective, which has its left operand
already. What waits is taken up from the last call to the first one. So a negation that is called
before a connective is around the connective, and the condition that was there before the negation
is negated too. A negation that is called after the connective is around the right operand only.

The two orders are followed side by side through any further calls. The two runs differ in one
place (`Where.Narrowed.run`), which is first among what waits and then in a condition. Conditions
that differ so have the same tests in the same order (`Clause.Narrowed.leaves_eq`), and these decide
which arguments are asked for (`Clause.args_render`). But they never say the same
(`Clause.Narrowed.apart`).

The main statement is `Where.negation_before_connective`.
-/

namespace Relmap

open Outcome

/-! ### Formulas that differ in one place -/

namespace Formula

/-- Some truth values tell two formulas apart. -/
def Apart {α : Type} (f g : Formula α) : Prop :=
  ∃ v : α → Bool, f.eval .boolean v ≠ g.eval .boolean v

/-- Each atom of a formula stands in it once and is less than `k`. -/
structure Below (k : Nat) (f : Formula Nat) : Prop where
  once : f.atoms.Nodup
  lt : ∀ a ∈ f.atoms, a < k

namespace Apart

variable {α : Type} {f g h : Formula α}

theorem not (apart : f.Apart g) : f.not.Apart g.not := by
  obtain ⟨v, hv⟩ := apart
  exact ⟨v, fun same => hv (Bool.not_inj same)⟩

/-- A third formula with atoms of its own can be given a value that hides no difference. -/
theorem exists_unit (apart : f.Apart g) (op : Connective) (once : h.atoms.Nodup)
    (hf : f.atoms.Disjoint h.atoms) (hg : g.atoms.Disjoint h.atoms) :
    ∃ v : α → Bool, f.eval .boolean v ≠ g.eval .boolean v ∧ h.eval .boolean v = op.unit := by
  obtain ⟨v, hv⟩ := apart
  obtain ⟨w, hw⟩ := exists_eval_eq once op.unit
  obtain ⟨u, huv, huw⟩ := exists_both (List.disjoint_append_left.mpr ⟨hf, hg⟩) v w
  refine ⟨u, ?_, ?_⟩
  · rwa [eval_congr fun a ha => huv a (List.mem_append_left _ ha),
      eval_congr fun a ha => huv a (List.mem_append_right _ ha)]
  · rw [eval_congr huw, hw]

theorem connect_left (apart : f.Apart g) (op : Connective) (once : h.atoms.Nodup)
    (hf : f.atoms.Disjoint h.atoms) (hg : g.atoms.Disjoint h.atoms) :
    (connect op f h).Apart (connect op g h) := by
  obtain ⟨v, differ, unit⟩ := apart.exists_unit op once hf hg
  exact ⟨v, by simpa [unit] using differ⟩

theorem connect_right (apart : f.Apart g) (op : Connective) (once : h.atoms.Nodup)
    (hf : f.atoms.Disjoint h.atoms) (hg : g.atoms.Disjoint h.atoms) :
    (connect op h f).Apart (connect op h g) := by
  obtain ⟨v, differ, unit⟩ := apart.exists_unit op once hf hg
  exact ⟨v, by simpa [unit] using differ⟩

/-- A negation around a connective and one around its right operand: if the left operand decides the
connective, the first one turns the value round and the second one does not. -/
theorem of_narrowed (op : Connective) (once : h.atoms.Nodup) :
    (Formula.not (connect op h f)).Apart (connect op h (.not f)) := by
  obtain ⟨v, decided⟩ := exists_eval_eq once !op.unit
  have around : (Formula.not (connect op h f)).eval .boolean v = op.unit := by
    show (!(connect op h f).eval .boolean v) = op.unit
    rw [eval_connect, decided, Connective.not_unit_bool, Bool.not_not]
  have behind : (connect op h (.not f)).eval .boolean v = !op.unit := by
    rw [eval_connect, decided, Connective.not_unit_bool]
  exact ⟨v, by simp [around, behind]⟩

end Apart

end Formula

namespace Clause

open Formula (Apart Below)

mutual

/-- The atoms of a condition are the numbers of its tests. -/
theorem atoms_formula : ∀ (c : Clause) (k : Nat),
    (c.formula k).atoms = List.range' k c.leaves.length
  | .leaf _, k => rfl
  | .inQuery _ _ _, k => rfl
  | .many op first second rest, k => by
    rw [formula, atoms_joinedFormula op rest, Formula.atoms_connect, atoms_formula first,
      atoms_formula second, List.range'_append_1, Nat.add_assoc, List.range'_append_1, leaves,
      List.length_append, List.length_append]
  | .not operand, k => atoms_formula operand k
  | .nonempty _, k => rfl

theorem atoms_joinedFormula (op : Connective) : ∀ (cs : List Clause) (k : Nat) (left : Formula Nat),
    (joinedFormula k op left cs).atoms = left.atoms ++ List.range' k (allLeaves cs).length
  | [], _, left => (List.append_nil _).symm
  | c :: rest, k, left => by
    rw [joinedFormula, atoms_joinedFormula op rest, Formula.atoms_connect, atoms_formula c,
      List.append_assoc, List.range'_append_1, allLeaves, List.length_append]

end

theorem nodup_atoms_formula (c : Clause) (k : Nat) : (c.formula k).atoms.Nodup := by
  rw [atoms_formula]
  exact List.nodup_range'

theorem below_formula (c : Clause) (k : Nat) : (c.formula k).Below (k + c.leaves.length) where
  once := c.nodup_atoms_formula k
  lt a ha := by
    rw [atoms_formula, List.mem_range'_1] at ha
    exact ha.2

/-- The tests of a condition have numbers of their own where they are numbered on. -/
theorem disjoint_atoms_formula {f : Formula Nat} {k : Nat} (below : f.Below k) (c : Clause) :
    f.atoms.Disjoint (c.formula k).atoms := by
  intro a hf hc
  have less := below.lt a hf
  rw [atoms_formula, List.mem_range'_1] at hc
  omega

variable {op : Connective} {c c' whole : Clause} {k : Nat} {f g : Formula Nat}

theorem below_connect (below : f.Below k) (op : Connective) (c : Clause) :
    (Formula.connect op f (c.formula k)).Below (k + c.leaves.length) where
  once := by
    rw [Formula.atoms_connect]
    exact below.once.append (c.nodup_atoms_formula k) (disjoint_atoms_formula below c)
  lt a ha := by
    rw [Formula.atoms_connect, List.mem_append] at ha
    rcases ha with ha | ha
    · exact Nat.lt_add_right _ (below.lt a ha)
    · exact (c.below_formula k).lt a ha

/-- Further operands do not hide a difference. -/
theorem apart_joinedFormula (apart : f.Apart g) (hf : f.Below k) (hg : g.Below k)
    (op : Connective) (cs : List Clause) :
    (joinedFormula k op f cs).Apart (joinedFormula k op g cs) := by
  induction cs generalizing k f g with
  | nil => exact apart
  | cons c rest ih =>
    have step := apart.connect_left op (c.nodup_atoms_formula k) (disjoint_atoms_formula hf c)
      (disjoint_atoms_formula hg c)
    exact ih step (below_connect hf op c) (below_connect hg op c)

/-- Operands around do not hide a difference of one operand. -/
theorem apart_joinedFormula_operand (apart : ∀ k, (c.formula k).Apart (c'.formula k))
    (same : c.leaves = c'.leaves) (op : Connective) (before after : List Clause)
    (below : f.Below k) :
    (joinedFormula k op f (before ++ c :: after)).Apart
      (joinedFormula k op f (before ++ c' :: after)) := by
  induction before generalizing k f with
  | nil =>
    have differ := (apart k).connect_right op below.once (disjoint_atoms_formula below c).symm
      (disjoint_atoms_formula below c').symm
    have bound : (Formula.connect op f (c'.formula k)).Below (k + c.leaves.length) :=
      same ▸ below_connect below op c'
    rw [List.nil_append, List.nil_append, joinedFormula, joinedFormula, ← same]
    exact apart_joinedFormula differ (below_connect below op c) bound op after
  | cons b before ih => exact ih (below_connect below op b)

/-! ### Conditions that differ in one place -/

theorem leaves_connected {cs : List Clause} (h : connected op cs = .ok whole) :
    whole.leaves = cs.flatMap leaves := by
  match cs, h with
  | a :: b :: rest, h =>
    cases h
    rw [leaves, allLeaves_eq_flatMap, List.flatMap_cons, List.flatMap_cons, List.append_assoc]

theorem formula_connected {rest : List Clause} (h : connected op (c :: rest) = .ok whole)
    (k : Nat) : whole.formula k = joinedFormula (k + c.leaves.length) op (c.formula k) rest := by
  cases rest with
  | nil => cases h
  | cons b rest =>
    cases h
    rfl

/-- Two conditions differ in one place: in the first one a negation is around a connective with the
left operand `left`, in the second one around its right operand. -/
inductive Narrowed (op : Connective) (left : Clause) : Clause → Clause → Prop
  | here (next : Clause) :
    Narrowed op left (.not (.many op left next [])) (.many op left (.not next) [])
  | not {c c' : Clause} (h : Narrowed op left c c') : Narrowed op left (.not c) (.not c')
  | operand (op' : Connective) (before after : List Clause) {c c' whole whole' : Clause}
    (h : Narrowed op left c c') (first : connected op' (before ++ c :: after) = .ok whole)
    (second : connected op' (before ++ c' :: after) = .ok whole') : Narrowed op left whole whole'

namespace Narrowed

variable {left : Clause}

/-- The tests are the same ones in the same order. -/
theorem leaves_eq (h : Narrowed op left c c') : c.leaves = c'.leaves := by
  induction h with
  | here next => rfl
  | not h ih => exact ih
  | operand op' before after h first second ih =>
    rw [leaves_connected first, leaves_connected second, List.flatMap_append, List.flatMap_append,
      List.flatMap_cons, List.flatMap_cons, ih]

/-- **The conditions never say the same.** -/
theorem apart (h : Narrowed op left c c') (k : Nat) : (c.formula k).Apart (c'.formula k) := by
  induction h generalizing k with
  | here next => exact Apart.of_narrowed op (left.nodup_atoms_formula k)
  | not h ih => exact (ih k).not
  | @operand op' before after c c' _ _ h first second ih =>
    cases before with
    | nil =>
      have bound : (c'.formula k).Below (k + c.leaves.length) :=
        h.leaves_eq ▸ c'.below_formula k
      rw [formula_connected first, formula_connected second, ← h.leaves_eq]
      exact apart_joinedFormula (ih k) (c.below_formula k) bound op' after
    | cons b before =>
      rw [formula_connected first, formula_connected second]
      exact apart_joinedFormula_operand ih h.leaves_eq op' before after (b.below_formula k)

/-- What takes up two such conditions makes two such conditions. -/
theorem foldl_join (h : Narrowed op left c c') (ps : List Pending) :
    Narrowed op left (ps.foldl Pending.join c) (ps.foldl Pending.join c') := by
  induction ps generalizing c c' with
  | nil => exact h
  | cons p ps ih =>
    refine ih ?_
    cases p with
    | connective op' l => exact .operand op' [l] [] h rfl rfl
    | not => exact h.not

end Narrowed

/-! ### What a condition asks for -/

mutual

/-- A condition cannot be written for the cause of the first test in it that cannot be written. -/
theorem cause_template (d : Dialect) (q : Option String) : ∀ c : Clause,
    cause? (c.template d q) = c.leaves.findSome? fun leaf => cause? (leaf.template d q)
  | .leaf _ => List.findSome?_singleton.symm
  | .inQuery _ _ _ => List.findSome?_singleton.symm
  | .many op first second rest => by
    have further (a b : Template) := cause_joinedTemplate d q op rest
      ((a.operand op first.kind).joined op (b.operand op second.kind))
    rw [template, cause?_bind fun a => cause?_bind fun b => further a b, cause_template d q first,
      cause_template d q second, leaves, List.findSome?_append, List.findSome?_append,
      Option.or_assoc]
  | .not operand => by rw [template, cause?_map, cause_template d q operand, leaves]
  | .nonempty _ => List.findSome?_singleton.symm

theorem cause_joinedTemplate (d : Dialect) (q : Option String) (op : Connective) :
    ∀ (cs : List Clause) (left : Template), cause? (joinedTemplate d q op left cs) =
      (allLeaves cs).findSome? fun leaf => cause? (leaf.template d q)
  | [], _ => rfl
  | c :: rest, left => by
    have further (a : Template) :=
      cause_joinedTemplate d q op rest (left.joined op (a.operand op c.kind))
    rw [joinedTemplate, cause?_bind further, cause_template d q c, allLeaves, List.findSome?_append]

end

/-- **The tests of a condition and their order decide which arguments it asks for**, and why it
cannot be written if it cannot. -/
theorem args_render (c : Clause) (d : Dialect) (q : Option String) (draft : Draft) :
    (c.render d q draft).map Draft.args =
      match c.leaves.findSome? fun leaf => cause? (leaf.template d q) with
      | some e => .error e
      | none => .ok (draft.args ++ c.leaves.flatMap args) := by
  have cause := c.cause_template d q
  rw [c.writes_template d q, map_map, ← cause, ← c.args_eq_leaves]
  cases h : c.template d q with
  | error e => rfl
  | ok t =>
    rw [← c.args_template d q t h]
    rfl

end Clause

/-! ### Two runs side by side -/

variable {op : Connective} {left : Clause}

/-- What waits differs in one place: in a left operand, or a connective waits above a negation and
below it. -/
inductive Pending.Narrowed (op : Connective) (left : Clause) : List Pending → List Pending → Prop
  | here (older : List Pending) :
    Narrowed op left (.connective op left :: .not :: older) (.not :: .connective op left :: older)
  | operand {c c' : Clause} (h : Clause.Narrowed op left c c') (op' : Connective)
    (older : List Pending) :
    Narrowed op left (.connective op' c :: older) (.connective op' c' :: older)
  | cons {ps ps' : List Pending} (h : Narrowed op left ps ps') (p : Pending) :
    Narrowed op left (p :: ps) (p :: ps')

/-- The next condition brings the difference into the condition. -/
theorem Pending.Narrowed.foldl_join {ps ps' : List Pending} (h : Narrowed op left ps ps')
    (next : Clause) :
    Clause.Narrowed op left (ps.foldl Pending.join next) (ps'.foldl Pending.join next) := by
  induction h generalizing next with
  | here older => exact (Clause.Narrowed.here next).foldl_join older
  | @operand c c' h op' older =>
    have joined : Clause.Narrowed op left (.many op' c next []) (.many op' c' next []) :=
      .operand op' [] [next] h rfl rfl
    exact joined.foldl_join older
  | cons h p ih => exact ih (p.join next)

theorem Pending.Narrowed.ne_nil {ps ps' : List Pending} (h : Narrowed op left ps ps') :
    ps ≠ [] ∧ ps' ≠ [] := by
  cases h <;> simp

namespace Where

/-- The last conditions can be put under a connective if at least two are asked for and there are as
many. -/
theorem exists_connected_last {cs : List Clause} {count : Nat}
    (enough : ¬(count < 2 ∨ cs.length < count)) (op : Connective) :
    ∃ c, Clause.connected op (cs.take count).reverse = .ok c := by
  obtain ⟨a, b, rest, last⟩ := exists_last_conditions enough
  exact ⟨.many op a b rest, by rw [last]; rfl⟩

theorem clause_of_waiting {w : Where} (fine : w.fault = none) (waiting : w.pending ≠ []) :
    w.clause = .error (.statement .nothingAfter) := by
  obtain ⟨p, ps, pending⟩ := List.exists_cons_of_ne_nil waiting
  unfold clause
  rw [fine, pending]

theorem clause_of_unconnected {w : Where} (fine : w.fault = none) (idle : w.pending = [])
    (more : 2 ≤ w.clauses.length) :
    w.clause = .error (.statement (.unconnected w.clauses.length)) := by
  match stack : w.clauses, more with
  | a :: b :: rest, _ =>
    unfold clause
    rw [fine, idle, stack]

/-- Two conditions differ in one place while they are put together: among what waits, or in one of
the conditions on the stack. -/
inductive Narrowed (op : Connective) (left : Clause) : Where → Where → Prop
  | waits (w : Where) {ps ps' : List Pending} (h : Pending.Narrowed op left ps ps') :
    Narrowed op left { w with pending := ps } { w with pending := ps' }
  | holds (w : Where) {c c' : Clause} (h : Clause.Narrowed op left c c')
    (newer older : List Clause) :
    Narrowed op left { w with clauses := newer ++ c :: older }
      { w with clauses := newer ++ c' :: older }

namespace Narrowed

variable {w w' : Where}

/-- The same condition is added to both. -/
theorem add (h : Narrowed op left w w') (c : Clause) : Narrowed op left (w.add c) (w'.add c) := by
  cases h with
  | waits w h => exact .holds { w with pending := [] } (h.foldl_join c) [] w.clauses
  | holds w h newer older =>
    exact .holds { w with pending := [] } h (w.pending.foldl Pending.join c :: newer) older

theorem fail (h : Narrowed op left w w') (e : Failure) :
    Narrowed op left (w.fail e) (w'.fail e) := by
  cases h with
  | waits w h => exact .waits (w.fail e) h
  | holds w h newer older => exact .holds (w.fail e) h newer older

theorem length_eq (h : Narrowed op left w w') : w.clauses.length = w'.clauses.length := by
  cases h with
  | waits w h => rfl
  | holds w h newer older => simp

theorem table_eq (h : Narrowed op left w w') : w.table = w'.table := by
  cases h <;> rfl

theorem dialect_eq (h : Narrowed op left w w') : w.dialect = w'.dialect := by
  cases h <;> rfl

theorem fault_eq (h : Narrowed op left w w') : w.fault = w'.fault := by
  cases h <;> rfl

/-- Two conditions that differ in one place are added. -/
theorem of_add (w : Where) {c c' : Clause} (h : Clause.Narrowed op left c c') :
    Narrowed op left (w.add c) (w.add c') :=
  .holds { w with pending := [] } (h.foldl_join w.pending) [] w.clauses

theorem connect (h : Narrowed op left w w') (op' : Connective) :
    Narrowed op left (w.connect op') (w'.connect op') := by
  cases h with
  | waits w h =>
    obtain ⟨dialect, table, clauses, pending, fault⟩ := w
    cases clauses with
    | nil => exact .fail (.waits { dialect, table, fault } h) _
    | cons c rest =>
      exact .waits { dialect, table, clauses := rest, fault } (h.cons (.connective op' c))
  | holds w h newer older =>
    cases newer with
    | nil => exact .waits { w with clauses := older } (.operand h op' w.pending)
    | cons c newer =>
      exact .holds { w with pending := .connective op' c :: w.pending } h newer older

/-- Conditions are combined: the one that differs is older than all of them, or it is one of
them. -/
theorem combine (h : Narrowed op left w w') (op' : Connective) (count : Nat) :
    Narrowed op left (w.combine op' count) (w'.combine op' count) := by
  by_cases few : count < 2 ∨ w.clauses.length < count
  · rw [Where.combine, Where.combine, if_pos few, if_pos (h.length_eq ▸ few), ← h.length_eq]
    exact h.fail _
  have few' : ¬(count < 2 ∨ w'.clauses.length < count) := h.length_eq ▸ few
  obtain ⟨whole, first⟩ := exists_connected_last few op'
  obtain ⟨whole', second⟩ := exists_connected_last few' op'
  rw [combine_of_connected few first, combine_of_connected few' second]
  cases h with
  | waits w h =>
    obtain rfl : whole = whole' := Except.ok.inj (first.symm.trans second)
    exact .add (.waits { w with clauses := w.clauses.drop count } h) whole
  | @holds w c c' h newer older =>
    by_cases deep : count ≤ newer.length
    · simp only [List.take_append_of_le_length deep] at first second
      obtain rfl : whole = whole' := Except.ok.inj (first.symm.trans second)
      simp only [List.drop_append_of_le_length deep]
      exact .add (.holds w h (newer.drop count) older) whole
    · obtain ⟨k, rfl⟩ : ∃ k, count = newer.length + (k + 1) := ⟨count - newer.length - 1, by omega⟩
      simp only [List.take_length_add_append, List.take_succ_cons, List.reverse_append,
        List.reverse_cons, List.append_assoc, List.singleton_append] at first second
      simp only [List.drop_length_add_append, List.drop_succ_cons]
      exact of_add { w with clauses := older.drop k }
        (.operand op' (older.take k).reverse newer.reverse h first second)

/-- One more call leaves two conditions that differ in one place. -/
theorem apply (h : Narrowed op left w w') (call : WhereCall) :
    Narrowed op left (w.apply call) (w'.apply call) := by
  cases call with
  | test x =>
    simp only [Where.apply, Where.test, ← h.table_eq]
    cases w.table.clause x with
    | ok c => exact h.add c
    | error e => exact h.fail e
  | connect op' => exact h.connect op'
  | not =>
    cases h with
    | waits w h => exact .waits w (h.cons .not)
    | holds w h newer older =>
      exact .holds { w with pending := .not :: w.pending } h newer older
  | combine op' count => exact h.combine op' count

/-- **The difference stays through a run**, and stays in one place. -/
theorem run (h : Narrowed op left w w') (calls : List WhereCall) :
    Narrowed op left (w.run calls) (w'.run calls) := by
  induction calls generalizing w w' with
  | nil => exact h
  | cons call rest ih => exact ih (h.apply call)

/-- Both fail for the same cause, or both are finished with conditions that differ in one place. -/
theorem clause (h : Narrowed op left w w') :
    (∃ e, w.clause = .error e ∧ w'.clause = .error e) ∨
      ∃ c c', w.clause = .ok c ∧ w'.clause = .ok c' ∧ Clause.Narrowed op left c c' := by
  cases fault : w.fault with
  | some e => exact .inl ⟨e, clause_of_fault fault, clause_of_fault (h.fault_eq ▸ fault)⟩
  | none =>
    have fault' : w'.fault = none := h.fault_eq ▸ fault
    have length := h.length_eq
    cases h with
    | waits w h =>
      exact .inl ⟨_, clause_of_waiting fault h.ne_nil.1, clause_of_waiting fault' h.ne_nil.2⟩
    | holds w h newer older =>
      by_cases idle : w.pending = []
      · by_cases only : newer = [] ∧ older = []
        · obtain ⟨rfl, rfl⟩ := only
          exact .inr ⟨_, _, clause_of_finished fault idle rfl, clause_of_finished fault' idle rfl, h⟩
        · have more (c : Clause) : 2 ≤ (newer ++ c :: older).length := by
            rw [← List.length_eq_zero_iff, ← List.length_eq_zero_iff] at only
            rw [List.length_append, List.length_cons]
            omega
          have first := clause_of_unconnected fault idle (more _)
          rw [length] at first
          exact .inl ⟨_, first, clause_of_unconnected fault' idle (more _)⟩
      · exact .inl ⟨_, clause_of_waiting fault idle, clause_of_waiting fault' idle⟩

/-- **The same arguments are asked for.** -/
theorem args_render (h : Narrowed op left w w') (q : Option String) (draft : Draft) :
    (w.render q draft).map Draft.args = (w'.render q draft).map Draft.args := by
  rcases h.clause with ⟨e, failed, failed'⟩ | ⟨c, c', finished, finished', differ⟩
  · rw [render, render, failed, failed']
    rfl
  · rw [render, render, finished, finished', ← h.dialect_eq]
    show (c.render _ q draft).map Draft.args = (c'.render _ q draft).map Draft.args
    rw [c.args_render, c'.args_render, differ.leaves_eq]

end Narrowed

/-- **A negation that is called before a connective reaches back to the left operand.** The two
orders of the calls, and any calls after them, leave two conditions that differ in one place: the
negation is around the connective if it was called first, and around the right operand if it was
called second. Both fail for the same cause, or both are finished and ask for the same arguments,
but there are values of the tests for which they say different things. -/
theorem negation_before_connective {w : Where} {left : Clause} {rest : List Clause}
    (top : w.clauses = left :: rest) (op : Connective) (calls : List WhereCall) :
    let around := w.run (.not :: .connect op :: calls)
    let behind := w.run (.connect op :: .not :: calls)
    Narrowed op left around behind ∧
      (∀ q draft, (around.render q draft).map Draft.args =
        (behind.render q draft).map Draft.args) ∧
      ((∃ e, around.clause = .error e ∧ behind.clause = .error e) ∨
        ∃ c c', around.clause = .ok c ∧ behind.clause = .ok c' ∧ Clause.Narrowed op left c c' ∧
          (c.formula 0).Apart (c'.formula 0)) := by
  intro around behind
  have start : Narrowed op left ((w.apply .not).apply (.connect op))
      ((w.apply (.connect op)).apply .not) := by
    simp only [apply, not, connect, top]
    exact .waits { w with clauses := rest } (.here w.pending)
  have narrowed : Narrowed op left around behind := start.run calls
  refine ⟨narrowed, narrowed.args_render, ?_⟩
  rcases narrowed.clause with failed | ⟨c, c', finished, finished', differ⟩
  · exact .inl failed
  · exact .inr ⟨c, c', finished, finished', differ, differ.apart 0⟩

/-- The two orders before an OR, with an AND after it: the same arguments, and conditions that some
truth values of the three tests tell apart. -/
theorem orders_before_or_told_apart : ∃ t c c', pets.toTable .sqlite = .ok t ∧
    let w : Where := { dialect := .sqlite, table := t, clauses := [.leaf (.null "id" false)] }
    let calls : List WhereCall :=
      [.test (.compare .eq "name" (.value (.text "a"))), .connect .and, .test (.null "id" true)]
    (w.run (.not :: .connect .or :: calls)).clause = .ok c ∧
      (w.run (.connect .or :: .not :: calls)).clause = .ok c' ∧
      ((w.run (.not :: .connect .or :: calls)).render none {}).map Draft.args =
        ((w.run (.connect .or :: .not :: calls)).render none {}).map Draft.args ∧
      ∃ v : Nat → Bool, (c.formula 0).eval .boolean v ≠ (c'.formula 0).eval .boolean v := by
  obtain ⟨t, c, c', table, around, behind⟩ : ∃ t c c', pets.toTable .sqlite = .ok t ∧
      (run { dialect := .sqlite, table := t, clauses := [.leaf (.null "id" false)] }
        [.not, .connect .or, .test (.compare .eq "name" (.value (.text "a"))), .connect .and,
          .test (.null "id" true)]).clause = .ok c ∧
      (run { dialect := .sqlite, table := t, clauses := [.leaf (.null "id" false)] }
        [.connect .or, .not, .test (.compare .eq "name" (.value (.text "a"))), .connect .and,
          .test (.null "id" true)]).clause = .ok c' := ⟨_, _, _, rfl, rfl, rfl⟩
  obtain ⟨-, args, ends⟩ := negation_before_connective
    (w := { dialect := .sqlite, table := t, clauses := [.leaf (.null "id" false)] }) rfl .or
    [.test (.compare .eq "name" (.value (.text "a"))), .connect .and, .test (.null "id" true)]
  refine ⟨t, c, c', table, around, behind, args none {}, ?_⟩
  rcases ends with ⟨e, failed, -⟩ | ⟨d, d', finished, finished', -, apart⟩
  · cases around.symm.trans failed
  · obtain rfl : c = d := Except.ok.inj (around.symm.trans finished)
    obtain rfl : c' = d' := Except.ok.inj (behind.symm.trans finished')
    exact apart

/-- A negation called before AND is around both operands. -/
theorem left_operand_negated : ∃ t, pets.toTable .sqlite = .ok t ∧
    let w : Where := { dialect := .sqlite, table := t, clauses := [.leaf (.null "id" false)] }
    let around := w.run [.not, .connect .and, .test (.null "name" false)]
    let behind := w.run [.connect .and, .not, .test (.null "name" false)]
    around.clause = .ok
        (.not (.many .and (.leaf (.null "id" false)) (.leaf (.null "name" false)) [])) ∧
      behind.clause = .ok
        (.many .and (.leaf (.null "id" false)) (.not (.leaf (.null "name" false))) []) ∧
      (around.render none {}).map Draft.text =
        .ok "(NOT (\"id\" IS NULL AND \"name\" IS NULL)) " ∧
      (behind.render none {}).map Draft.text =
        .ok "\"id\" IS NULL AND (NOT \"name\" IS NULL) " ∧
      around.clauses ≠ behind.clauses ∧
      (around.render none {}).map Draft.text ≠ (behind.render none {}).map Draft.text := by
  refine ⟨_, rfl, rfl, rfl, by decide +kernel, by decide +kernel, fun same => ?_, by decide +kernel⟩
  cases same

end Where

end Relmap
