import Relmap.Proofs.Outcome
import Relmap.Proofs.Statement.Placement

/-!
# Arguments of conditions

The arguments that a condition carries, read off its tree from left to right, are the arguments of
its template (`Clause.args_template`), so that they are what writing the condition asks for. They
are the ones of its tests (`Clause.args_eq_leaves`).
-/

namespace Relmap

open Template (ofText)

/-- The arguments of a test. -/
def Leaf.args : Leaf → List Argument
  | .compare _ _ (.argument a) => [a]
  | .compare _ _ (.column _) => []
  | .between _ low high => [low, high]
  | .inList _ first rest _ => first :: rest
  | .null _ _ => []
  | .raw _ args => args

mutual

/-- The arguments of a condition. -/
def Clause.args : Clause → List Argument
  | .leaf l => l.args
  | .inQuery _ query _ | .nonempty query => SubQuery.args query
  | .many _ first second rest => Clause.args first ++ Clause.args second ++ Clause.allArgs rest
  | .not operand => Clause.args operand

/-- The arguments of conditions. -/
def Clause.allArgs : List Clause → List Argument
  | [] => []
  | c :: rest => Clause.args c ++ Clause.allArgs rest

/-- The arguments of a query. -/
def SubQuery.args : SubQuery → List Argument
  | .select _ condition => Condition.args condition
  | .outside (.ok t) _ => t.args
  | .outside (.error _) _ => []

/-- The arguments of the condition of a query. -/
def Condition.args : Condition → List Argument
  | .absent | .broken _ => []
  | .holds _ clause => Clause.args clause

end

theorem Template.args_operand (op : Connective) (kind : ClauseKind) (t : Template) :
    (t.operand op kind).args = t.args := by
  unfold Template.operand
  split
  · split
    · rfl
    · simp
  · rfl

theorem Template.args_negation (kind : ClauseKind) (t : Template) :
    (Template.negation kind t).args = t.args := by
  cases kind <;> simp [Template.negation]

theorem Template.args_joined (op : Connective) (t u : Template) :
    (t.joined op u).args = t.args ++ u.args := by
  simp [Template.joined]

theorem Template.args_ofMoreArguments (d : Dialect) (args : List Argument) :
    (Template.ofMoreArguments d args).args = args := by
  induction args with
  | nil => rfl
  | cons a rest ih => simp [Template.ofMoreArguments, ih]

theorem Leaf.args_template (d : Dialect) (table : Option String) (l : Leaf) :
    (l.template d table).args = l.args := by
  cases l with
  | compare column operator rhs => cases rhs <;> simp [template, Rhs.template, args]
  | between column low high => simp [template, args]
  | inList column first rest negated => simp [template, args, Template.args_ofMoreArguments]
  | null column negated => simp [template, args]
  | raw sql args => rfl

theorem SelectShape.args_template {s : SelectShape} {out : Except Failure Template} {t : Template}
    (h : s.template out = .ok t) : ∃ u, out = .ok u ∧ t.args = u.args := by
  unfold SelectShape.template at h
  split at h
  · cases h
  · simp only [Outcome.bind_eq_ok, Outcome.pure_eq_ok] at h
    obtain ⟨u, hu, window, -, rfl⟩ := h
    exact ⟨u, hu, by simp⟩

mutual

/-- A condition asks for its arguments in order and for no others. -/
theorem Clause.args_template (d : Dialect) (table : Option String) :
    ∀ (c : Clause) (t : Template), c.template d table = .ok t → t.args = c.args
  | .leaf l, t, ht => by
    cases ht
    exact l.args_template d table
  | .inQuery column query negated, t, ht => by
    simp only [Clause.template, Outcome.map_eq_ok] at ht
    obtain ⟨u, hu, rfl⟩ := ht
    simpa [Clause.args] using SubQuery.args_template query u hu
  | .many op first second rest, t, ht => by
    simp only [Clause.template, Outcome.bind_eq_ok] at ht
    obtain ⟨a, ha, b, hb, ht⟩ := ht
    rw [Clause.args_joinedTemplate d table op rest _ t ht, Template.args_joined,
      Template.args_operand, Template.args_operand, Clause.args_template d table first a ha,
      Clause.args_template d table second b hb, Clause.args]
  | .not operand, t, ht => by
    obtain ⟨u, hu, rfl⟩ := Outcome.map_eq_ok.mp ht
    rw [Template.args_negation, Clause.args_template d table operand u hu, Clause.args]
  | .nonempty query, t, ht => by
    simp only [Clause.template, Outcome.map_eq_ok] at ht
    obtain ⟨u, hu, rfl⟩ := ht
    simpa [Clause.args] using SubQuery.args_template query u hu

theorem Clause.args_joinedTemplate (d : Dialect) (table : Option String) (op : Connective) :
    ∀ (cs : List Clause) (left t : Template), Clause.joinedTemplate d table op left cs = .ok t →
      t.args = left.args ++ Clause.allArgs cs
  | [], left, t, ht => by
    cases ht
    simp [Clause.allArgs]
  | c :: rest, left, t, ht => by
    simp only [Clause.joinedTemplate, Outcome.bind_eq_ok] at ht
    obtain ⟨a, ha, ht⟩ := ht
    rw [Clause.args_joinedTemplate d table op rest _ t ht, Template.args_joined,
      Template.args_operand, Clause.args_template d table c a ha, Clause.allArgs, List.append_assoc]

theorem SubQuery.args_template :
    ∀ (q : SubQuery) (t : Template), q.template = .ok t → t.args = q.args
  | .select shape condition, t, ht => by
    obtain ⟨u, hu, rfl⟩ := Outcome.map_eq_ok.mp ht
    obtain ⟨v, hv, huv⟩ := SelectShape.args_template hu
    rw [Template.args_trimmed, huv, Condition.args_template shape.qualifier condition v hv,
      SubQuery.args]
  | .outside (.ok u) _, t, ht => by
    cases ht
    rfl
  | .outside (.error e) _, t, ht => nomatch ht

theorem Condition.args_template (table : Option String) :
    ∀ (c : Condition) (t : Template), Condition.template table c = .ok t → t.args = c.args
  | .absent, t, ht => by
    cases ht
    rfl
  | .broken _, t, ht => nomatch ht
  | .holds dialect clause, t, ht => by
    obtain ⟨u, hu, rfl⟩ := Outcome.map_eq_ok.mp ht
    simpa [Condition.args] using Clause.args_template dialect table clause u hu

end

/-! ### Tests of a condition -/

mutual

/-- The tests of a condition, from left to right: what is no connective and no negation. -/
def Clause.leaves : Clause → List Clause
  | .leaf l => [.leaf l]
  | .inQuery column query negated => [.inQuery column query negated]
  | .many _ first second rest =>
    Clause.leaves first ++ Clause.leaves second ++ Clause.allLeaves rest
  | .not operand => Clause.leaves operand
  | .nonempty query => [.nonempty query]

/-- The tests of conditions. -/
def Clause.allLeaves : List Clause → List Clause
  | [] => []
  | c :: rest => Clause.leaves c ++ Clause.allLeaves rest

end

theorem Clause.allLeaves_eq_flatMap (cs : List Clause) :
    Clause.allLeaves cs = cs.flatMap Clause.leaves := by
  induction cs with
  | nil => rfl
  | cons c rest ih => rw [Clause.allLeaves, ih, List.flatMap_cons]

mutual

/-- The arguments of a condition are the ones of its tests. -/
theorem Clause.args_eq_leaves : ∀ c : Clause, c.args = c.leaves.flatMap Clause.args
  | .leaf l => by simp [Clause.leaves]
  | .inQuery column query negated => by simp [Clause.leaves]
  | .many op first second rest => by
    rw [Clause.args, Clause.leaves, List.flatMap_append, List.flatMap_append,
      Clause.args_eq_leaves first, Clause.args_eq_leaves second, Clause.allArgs_eq_leaves rest]
  | .not operand => by rw [Clause.args, Clause.leaves, Clause.args_eq_leaves operand]
  | .nonempty query => by simp [Clause.leaves]

theorem Clause.allArgs_eq_leaves :
    ∀ cs : List Clause, Clause.allArgs cs = (Clause.allLeaves cs).flatMap Clause.args
  | [] => rfl
  | c :: rest => by
    rw [Clause.allArgs, Clause.allLeaves, List.flatMap_append, Clause.args_eq_leaves c,
      Clause.allArgs_eq_leaves rest]

end

end Relmap
