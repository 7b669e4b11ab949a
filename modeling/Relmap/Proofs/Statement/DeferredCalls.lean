import Relmap.Proofs.Statement.Deferral
import Relmap.Proofs.Statement.Run

/-!
# Calls with values left for later

An operand that is a value, and is not null, can be left for later in a test. Where the test with
the value makes a condition, the other one makes the condition with the argument left for later
(`Table.clause_defers`). So two runs of such calls keep related stacks as long as no call fails
(`Where.Defers.run`): a call joins, moves or cuts them in the same way, whatever values are in them.
-/

namespace Relmap

/-! ### Operands -/

/-- An operand whose value, which is not null, may be left for later. -/
inductive Operand.Defers : Operand → Operand → Multiset Value → Prop
  | same (o : Operand) : Defers o o 0
  | late {v : Value} (h : v.isNull = false) : Defers (.value v) (.late none) {v}

/-- An operand that has to be a value gives an argument that is left for later. -/
theorem Operand.Defers.argument {o o' : Operand} {m : Multiset Value} (h : o.Defers o' m)
    {f : Field} {a : Argument} (ha : o.argument f = .ok a) :
    ∃ a', o'.argument f = .ok a' ∧ a.Defers a' m := by
  cases h with
  | same => exact ⟨a, ha, .same a⟩
  | @late v hnull =>
    simp only [Operand.argument, hnull, Bool.false_eq_true, if_false, Argument.ofField,
      Outcome.bind_eq_ok, Outcome.pure_eq_ok] at ha
    obtain ⟨w, hw, rfl⟩ := ha
    exact ⟨_, rfl, .late hw⟩

/-- The right side of a comparison with a field. -/
theorem Table.rhs_defers {t : Table} {f : Field} {o o' : Operand} {m : Multiset Value}
    (h : o.Defers o' m) {r : Rhs} (hr : t.rhs f o = .ok r) (column : String) (op : CompareOp) :
    ∃ r', t.rhs f o' = .ok r' ∧ (Clause.compare column op r).Defers (.compare column op r') m := by
  cases h with
  | same => exact ⟨r, hr, .same _⟩
  | late hnull =>
    simp only [rhs, Outcome.bind_eq_ok, Outcome.pure_eq_ok] at hr
    obtain ⟨a, ha, rfl⟩ := hr
    obtain ⟨a', ha', hdefers⟩ := (Operand.Defers.late hnull).argument ha
    exact ⟨.argument a', Outcome.bind_eq_ok.mpr ⟨a', ha', rfl⟩, .leaf (.compare hdefers)⟩

/-! ### Tests -/

/-- A test with operands left for later, in itself or in the query inside it. -/
inductive Test.Defers : Test → Test → Multiset Value → Prop
  | same (x : Test) : Defers x x 0
  | compare {op : CompareOp} {column : String} {o o' : Operand} {m : Multiset Value}
      (h : o.Defers o' m) : Defers (.compare op column o) (.compare op column o') m
  | idEquals {o o' : Operand} {m : Multiset Value} (h : o.Defers o' m) :
    Defers (.idEquals o) (.idEquals o') m
  | between {column : String} {low low' high high' : Operand} {m n : Multiset Value}
      (hlow : low.Defers low' m) (hhigh : high.Defers high' n) :
    Defers (.between column low high) (.between column low' high') (m + n)
  | inList {column : String} {operands operands' : List Operand} {negated : Bool}
      {m : Multiset Value} (h : Paired Operand.Defers operands operands' m) :
    Defers (.inList column operands negated) (.inList column operands' negated) m
  | inQuery {column : String} {query query' : SubQuery} {negated : Bool} {m : Multiset Value}
      (h : query.Defers query' m) :
    Defers (.inQuery column query negated) (.inQuery column query' negated) m
  | nonempty {query query' : SubQuery} {negated : Bool} {m : Multiset Value}
      (h : query.Defers query' m) : Defers (.nonempty query negated) (.nonempty query' negated) m

theorem Table.compare_defers {t : Table} {op : CompareOp} {column : String} {o o' : Operand}
    {m : Multiset Value} (h : o.Defers o' m) {c : Clause} (hc : t.compare op column o = .ok c) :
    ∃ c', t.compare op column o' = .ok c' ∧ c.Defers c' m := by
  simp only [compare, Outcome.bind_eq_ok, Outcome.pure_eq_ok] at hc
  obtain ⟨f, hf, r, hr, rfl⟩ := hc
  obtain ⟨r', hr', hdefers⟩ := rhs_defers h hr column op
  exact ⟨_, Outcome.bind_eq_ok.mpr ⟨f, hf, Outcome.bind_eq_ok.mpr ⟨r', hr', rfl⟩⟩, hdefers⟩

/-- A test with operands left for later makes the same condition, with the arguments left. -/
theorem Table.clause_defers {t : Table} {x x' : Test} {m : Multiset Value} (h : x.Defers x' m)
    {c : Clause} (hc : t.clause x = .ok c) : ∃ c', t.clause x' = .ok c' ∧ c.Defers c' m := by
  cases h with
  | same => exact ⟨c, hc, .same c⟩
  | compare h => exact compare_defers h hc
  | idEquals h =>
    simp only [clause] at hc ⊢
    cases hid : t.idField? with
    | none => simp [hid] at hc
    | some f =>
      simp only [hid] at hc ⊢
      exact compare_defers h hc
  | between hlow hhigh =>
    simp only [clause, Outcome.bind_eq_ok, Outcome.pure_eq_ok] at hc
    obtain ⟨f, hf, a, ha, b, hb, rfl⟩ := hc
    obtain ⟨a', ha', hadefers⟩ := hlow.argument ha
    obtain ⟨b', hb', hbdefers⟩ := hhigh.argument hb
    refine ⟨_, Outcome.bind_eq_ok.mpr ⟨f, hf, Outcome.bind_eq_ok.mpr ⟨a', ha', ?_⟩⟩,
      .leaf (.between hadefers hbdefers)⟩
    exact Outcome.bind_eq_ok.mpr ⟨b', hb', rfl⟩
  | inList h =>
    simp only [clause, Outcome.bind_eq_ok] at hc
    obtain ⟨f, hf, args, hargs, hc⟩ := hc
    obtain ⟨args', hargs', hdefers⟩ := h.mapM (fun _ _ _ _ ho ha => ho.argument ha) hargs
    cases hdefers with
    | nil => cases hc
    | cons hfirst hrest =>
      cases hc
      refine ⟨_, Outcome.bind_eq_ok.mpr ⟨f, hf, ?_⟩, .leaf (.inList hfirst hrest)⟩
      exact Outcome.bind_eq_ok.mpr ⟨_, hargs', rfl⟩
  | inQuery h =>
    simp only [clause, Clause.ofQuery, Outcome.bind_eq_ok] at hc
    obtain ⟨u, hu, hc⟩ := hc
    split at hc
    · rename_i hwidth
      cases hc
      rw [← h.width] at hwidth
      exact ⟨_, Outcome.bind_eq_ok.mpr ⟨u, hu, if_pos hwidth⟩, .inQuery h⟩
    · cases hc
  | @nonempty _ _ negated _ h =>
    cases hc
    cases negated with
    | false => exact ⟨_, rfl, .nonempty h⟩
    | true => exact ⟨_, rfl, .not (.nonempty h)⟩

/-! ### Calls -/

/-- A call with operands left for later in its test. -/
inductive WhereCall.Defers : WhereCall → WhereCall → Multiset Value → Prop
  | same (call : WhereCall) : Defers call call 0
  | test {x x' : Test} {m : Multiset Value} (h : x.Defers x' m) : Defers (.test x) (.test x') m

/-- A waiting part with arguments left for later. -/
inductive Pending.Defers : Pending → Pending → Multiset Value → Prop
  | connective {op : Connective} {left left' : Clause} {m : Multiset Value}
      (h : left.Defers left' m) : Defers (.connective op left) (.connective op left') m
  | not : Defers .not .not 0

/-- Two conditions that are put together in the same way, with arguments left for later on either
stack of the second one. -/
inductive Where.Defers : Where → Where → Multiset Value → Prop
  | mk {d : Dialect} {t : Table} {clauses clauses' : List Clause} {pending pending' : List Pending}
      {fault : Option Failure} {m n : Multiset Value}
      (hclauses : Paired Clause.Defers clauses clauses' m)
      (hpending : Paired Pending.Defers pending pending' n) :
    Defers ⟨d, t, clauses, pending, fault⟩ ⟨d, t, clauses', pending', fault⟩ (m + n)

theorem Pending.Defers.join {p p' : Pending} {m n : Multiset Value} (h : p.Defers p' m)
    {c c' : Clause} (hc : c.Defers c' n) : (p.join c).Defers (p'.join c') (m + n) := by
  cases h with
  | connective h => exact add_zero (m + n) ▸ .many h hc .nil
  | not =>
    rw [zero_add]
    exact .not hc

/-- What waits is taken up with all that it leaves for later. -/
theorem Pending.foldl_join_defers {ps ps' : List Pending} {m n : Multiset Value}
    (h : Paired Pending.Defers ps ps' m) {c c' : Clause} (hc : c.Defers c' n) :
    (ps.foldl Pending.join c).Defers (ps'.foldl Pending.join c') (m + n) := by
  induction h generalizing c c' n with
  | nil => rwa [zero_add]
  | @cons p p' ps ps' l m head _ ih =>
    have hrest := ih (head.join hc)
    rwa [← add_assoc, add_comm m l] at hrest

/-- Related conditions under a connective. -/
theorem Clause.connected_defers {op : Connective} {cs cs' : List Clause} {m : Multiset Value}
    (h : Paired Clause.Defers cs cs' m) {c : Clause} (hc : Clause.connected op cs = .ok c) :
    ∃ c', Clause.connected op cs' = .ok c' ∧ c.Defers c' m := by
  cases h with
  | nil => cases hc
  | cons hfirst hmore =>
    cases hmore with
    | nil => cases hc
    | cons hsecond hrest =>
      cases hc
      refine ⟨_, rfl, ?_⟩
      rw [← add_assoc]
      exact .many hfirst hsecond hrest

namespace Where

/-- Nothing went wrong after a call only if nothing did before it and the call did not fail. -/
theorem fault_of_apply {w : Where} {call : WhereCall} (hok : (w.apply call).fault = none) :
    w.fault = none ∧ w.failure? call = none := by
  have hfault := (step_apply w call).fault
  rw [hok, eq_comm, Option.orElse_eq_none] at hfault
  exact hfault

variable {w w' : Where} {m n : Multiset Value}

namespace Defers

theorem add (h : w.Defers w' m) {c c' : Clause} (hc : c.Defers c' n) :
    (w.add c).Defers (w'.add c') (m + n) := by
  obtain @⟨d, t, clauses, clauses', pending, pending', fault, l, k, hclauses, hpending⟩ := h
  have hnew := Paired.cons (Pending.foldl_join_defers hpending hc) hclauses
  have hall : l + k + n = k + n + l + 0 := by
    rw [add_zero]
    ac_rfl
  rw [hall]
  exact .mk hnew .nil

theorem connect (h : w.Defers w' m) (op : Connective) (hne : w.clauses ≠ []) :
    (w.connect op).Defers (w'.connect op) m := by
  obtain @⟨d, t, clauses, clauses', pending, pending', fault, l, k, hclauses, hpending⟩ := h
  cases hclauses with
  | nil => exact absurd rfl hne
  | @cons c c' cs cs' i j head tail =>
    have hall : i + j + k = j + (i + k) := by ac_rfl
    rw [hall]
    exact .mk tail (.cons (.connective head) hpending)

theorem not (h : w.Defers w' m) : w.not.Defers w'.not m := by
  obtain @⟨d, t, clauses, clauses', pending, pending', fault, l, k, hclauses, hpending⟩ := h
  have hnew := Paired.cons Pending.Defers.not hpending
  rw [zero_add] at hnew
  exact .mk hclauses hnew

/-- The last conditions come off both stacks with what they leave for later. -/
theorem combine (h : w.Defers w' m) (op : Connective) {count : Nat}
    (hcount : ¬(count < 2 ∨ w.clauses.length < count)) :
    (w.combine op count).Defers (w'.combine op count) m := by
  obtain @⟨d, t, clauses, clauses', pending, pending', fault, l, k, hclauses, hpending⟩ := h
  have hcount' : ¬(count < 2 ∨ clauses'.length < count) := by rwa [hclauses.length]
  obtain ⟨i, j, rfl, htake, hdrop⟩ := hclauses.split count
  obtain ⟨a, b, rest, hoperands⟩ := exists_last_conditions hcount
  obtain ⟨c, hc⟩ : ∃ c, Clause.connected op (clauses.take count).reverse = .ok c :=
    ⟨.many op a b rest, congrArg (Clause.connected op) hoperands⟩
  obtain ⟨c', hc', hdefers⟩ := Clause.connected_defers htake.reverse hc
  have hleft : Where.Defers ⟨d, t, clauses.drop count, pending, fault⟩
      ⟨d, t, clauses'.drop count, pending', fault⟩ (j + k) := .mk hdrop hpending
  have hnew := hleft.add hdefers
  have hall : i + j + k = j + k + i := by ac_rfl
  simp only [Where.combine, if_neg hcount, if_neg hcount', hc, hc']
  rwa [hall]

theorem test (h : w.Defers w' m) {x x' : Test} (hx : x.Defers x' n)
    (hok : w.failure? (.test x) = none) : (w.test x).Defers (w'.test x') (m + n) := by
  have htable : w'.table = w.table := by
    cases h
    rfl
  cases hc : w.table.clause x with
  | error e => simp [failure?, hc] at hok
  | ok c =>
    obtain ⟨c', hc', hdefers⟩ := Table.clause_defers hx hc
    simp only [Where.test, htable, hc, hc']
    exact h.add hdefers

/-- A call that does not fail keeps the stacks related and adds what it leaves for later. -/
theorem apply (h : w.Defers w' m) {call call' : WhereCall} (hcall : call.Defers call' n)
    (hok : w.failure? call = none) : (w.apply call).Defers (w'.apply call') (m + n) := by
  cases hcall with
  | test hx => exact h.test hx hok
  | same =>
    cases call with
    | test x => exact h.test (.same x) hok
    | connect op =>
      have hne : w.clauses ≠ [] := fun hnil => by simp [failure?, hnil] at hok
      rw [add_zero]
      exact h.connect op hne
    | not =>
      rw [add_zero]
      exact h.not
    | combine op count =>
      have hcount : ¬(count < 2 ∨ w.clauses.length < count) := fun hfew => by
        simp only [failure?, if_pos hfew, reduceCtorEq] at hok
      rw [add_zero]
      exact h.combine op hcount

/-- **A run in which no call fails keeps the stacks related.** -/
theorem run (h : w.Defers w' m) {calls calls' : List WhereCall}
    (hcalls : Paired WhereCall.Defers calls calls' n) (hok : (w.run calls).fault = none) :
    (w.run calls).Defers (w'.run calls') (m + n) :=
  hcalls.foldl (f := Where.apply) (S := Where.Defers) (P := fun w => w.fault = none)
    (fun _ _ hok => (fault_of_apply hok).1)
    (fun _ _ _ _ _ _ h hcall hok => h.apply hcall (fault_of_apply hok).2) h hok

/-- The finished conditions are related too, or both are not put together well. -/
theorem condition (h : w.Defers w' m) : w.condition.Defers w'.condition m := by
  obtain @⟨d, t, clauses, clauses', pending, pending', fault, l, k, hclauses, hpending⟩ := h
  cases fault with
  | some e => exact .broken e _
  | none =>
    cases hpending with
    | cons _ _ => exact .broken _ _
    | nil =>
      cases hclauses with
      | nil => exact .broken _ _
      | @cons c c' _ _ i j head tail =>
        have hlength := tail.length
        cases tail with
        | nil =>
          rw [add_zero, add_zero]
          exact .holds head
        | cons _ _ =>
          simp only [Where.condition, Where.clause, List.length_cons] at hlength ⊢
          rw [hlength]
          exact .broken _ _

end Defers

end Where

end Relmap
