import Relmap.Proofs.Field.Storing
import Relmap.Proofs.Statement.InPlace
import Relmap.Proofs.Statement.Run

/-!
# The first failure counts

A call on a condition that fails leaves the condition as it is but for a note of the failure, and
the calls after it go on from there, with whatever waits. None of that comes to light: the failure
that was noted first is the one of the first call that fails (`Where.fault_run`), and writing the
condition gives that failure before it writes anything. Without a failure the condition is written
just if it is finished.

The main statement is `Where.append_after_calls`.
-/

namespace Relmap

open Outcome

/-! ### What goes wrong in a call -/

namespace Failure

/-- Whether a failure is one of a statement or of a conversion. Failures of these groups are given
again as they are. -/
def isRepeatable : Failure → Bool
  | .statement _ | .conversion _ => true
  | _ => false

theorem isRepeatable_of_isConversion {e : Failure} (h : e.isConversion = true) :
    e.isRepeatable = true := by
  cases e with
  | conversion _ => rfl
  | _ => cases h

end Failure

theorem Operand.failsOnly_argument (o : Operand) (f : Field) :
    FailsOnly (·.isRepeatable = true) (o.argument f) := by
  have stored (v : Value) : FailsOnly (·.isRepeatable = true) (f.toStored v) :=
    (f.failsOnly_toStored v).imp fun _ => Failure.isRepeatable_of_isConversion
  cases o with
  | value v =>
    unfold argument
    dsimp only
    split
    · exact .error rfl
    · exact .map (stored v)
  | late v =>
    cases v with
    | none => exact .ok _
    | some v => exact .map (.map (stored v))
  | column c => exact .error rfl

namespace Table

variable (t : Table)

theorem failsOnly_field (column : String) :
    FailsOnly (·.isRepeatable = true) (t.field column) := by
  unfold field
  split
  · exact .ok _
  · exact .error rfl

theorem failsOnly_comparable (column : String) :
    FailsOnly (·.isRepeatable = true) (t.comparable column) := by
  refine .bind (t.failsOnly_field column) fun f _ => ?_
  split
  · exact .ok _
  · exact .error rfl

theorem failsOnly_rhs (f : Field) (o : Operand) :
    FailsOnly (·.isRepeatable = true) (t.rhs f o) := by
  cases o with
  | value v => exact .map ((Operand.value v).failsOnly_argument f)
  | late v => exact .map ((Operand.late v).failsOnly_argument f)
  | column c =>
    unfold rhs
    dsimp only
    split
    · exact .bind (.map (t.failsOnly_field _)) fun _ _ => .ok _
    · exact .ok _

theorem failsOnly_compare (op : CompareOp) (column : String) (o : Operand) :
    FailsOnly (·.isRepeatable = true) (t.compare op column o) :=
  .bind (t.failsOnly_comparable column) fun f _ => .map (t.failsOnly_rhs f o)

theorem failsOnly_clause (x : Test) : FailsOnly (·.isRepeatable = true) (t.clause x) := by
  cases x with
  | compare op column o => exact t.failsOnly_compare op column o
  | idEquals o =>
    unfold clause
    dsimp only
    split
    · exact t.failsOnly_compare _ _ o
    · exact .error rfl
  | between column low high =>
    exact .bind (t.failsOnly_comparable column) fun f _ =>
      .bind (low.failsOnly_argument f) fun _ _ => .map (high.failsOnly_argument f)
  | inList column operands negated =>
    refine .bind (t.failsOnly_comparable column) fun f _ =>
      .bind (.mapM fun o _ => o.failsOnly_argument f) fun args _ => ?_
    cases args with
    | nil => exact .error rfl
    | cons a rest => exact .ok _
  | inQuery column query negated =>
    refine .bind (.map (t.failsOnly_field column)) fun _ _ => ?_
    unfold Clause.ofQuery
    split
    · exact .ok _
    · exact .error rfl
  | null column negated => exact .bind (.map (t.failsOnly_field column)) fun _ _ => .ok _
  | nonempty query negated => exact .ok _
  | raw sql args => exact .ok _
  | compareRaw column operator v => exact .ok _

end Table

/-! ### Runs -/

namespace Where

variable {w : Where} {calls : List WhereCall} {e : Failure}

/-- What goes wrong in a call is a failure of a statement or of a conversion. -/
theorem isRepeatable_of_failure? {call : WhereCall} (h : w.failure? call = some e) :
    e.isRepeatable = true := by
  cases call with
  | test x =>
    rw [failure?] at h
    split at h
    · cases h
    next failed =>
      cases h
      exact w.table.failsOnly_clause x e failed
  | connect op =>
    rw [failure?] at h
    split at h
    · cases h
      rfl
    · cases h
  | not => cases h
  | combine op count =>
    rw [failure?] at h
    split at h
    · cases h
      rfl
    · cases h

/-- What goes wrong in the first call of a run that fails, if one does. -/
def firstFailure? (w : Where) : List WhereCall → Option Failure
  | [] => none
  | call :: rest => w.failure? call <|> (w.apply call).firstFailure? rest

/-- **The first failure is noted**, and no later one. -/
theorem fault_run (w : Where) (calls : List WhereCall) :
    (w.run calls).fault = (w.fault <|> w.firstFailure? calls) := by
  induction calls generalizing w with
  | nil => cases h : w.fault <;> simp [firstFailure?, h]
  | cons call rest ih =>
    rw [run_cons, ih, (step_apply w call).fault, firstFailure?]
    cases w.fault <;> rfl

theorem firstFailure?_append (w : Where) (before after : List WhereCall) :
    w.firstFailure? (before ++ after) =
      (w.firstFailure? before <|> (w.run before).firstFailure? after) := by
  induction before generalizing w with
  | nil => simp [firstFailure?]
  | cons call rest ih =>
    rw [List.cons_append, firstFailure?, firstFailure?, ih, run_cons]
    cases w.failure? call <;> rfl

theorem firstFailure?_eq_none_iff : w.firstFailure? calls = none ↔ ¬w.CallFails calls := by
  constructor
  · rintro none ⟨before, call, after, rfl, fails⟩
    rw [firstFailure?_append, firstFailure?] at none
    cases failed : (w.run before).failure? call with
    | none => exact fails failed
    | some e =>
      rw [failed] at none
      cases first : w.firstFailure? before <;> simp [first] at none
  · intro fine
    induction calls generalizing w with
    | nil => rfl
    | cons call rest ih =>
      cases failed : w.failure? call with
      | some e => exact absurd ⟨[], call, rest, rfl, by simp [failed]⟩ fine
      | none =>
        rw [firstFailure?, failed]
        refine ih ?_
        rintro ⟨before, c, after, rfl, fails⟩
        exact fine ⟨call :: before, c, after, rfl, fails⟩

/-! ### Writing -/

theorem clause_of_fault (h : w.fault = some e) : w.clause = .error e := by
  unfold clause
  rw [h]

theorem clause_of_finished {c : Clause} (fine : w.fault = none) (pending : w.pending = [])
    (only : w.clauses = [c]) : w.clause = .ok c := by
  unfold clause
  rw [fine, pending, only]

/-- A condition in which something waits, or with no condition or more than one, is not finished. -/
theorem clause_of_unfinished (fine : w.fault = none)
    (h : ¬(w.pending = [] ∧ ∃ c, w.clauses = [c])) :
    ∃ cause, w.clause = .error (.statement cause) := by
  unfold clause
  rw [fine]
  split
  · contradiction
  · exact ⟨_, rfl⟩
  next c _ pending only => exact absurd ⟨pending, c, only⟩ h
  · exact ⟨_, rfl⟩
  · exact ⟨_, rfl⟩

/-- A condition that is not finished writes nothing. -/
theorem run_append_of_error (h : w.clause = .error e) (q : Option String) (draft : Draft) :
    (w.append q).run.run draft = (.error e, draft) :=
  Session.run_given_error h

theorem run_append_of_ok {c : Clause} (h : w.clause = .ok c) (q : Option String) (draft : Draft) :
    (w.append q).run.run draft = (c.append w.dialect q).run.run draft :=
  Session.run_given_ok h

/-- **The first failure sticks, and nothing is written with it.** Whatever is called after the first
call that fails, the failure of that call is what writing the condition gives, and the draft stays
as it is. If no call fails, a condition in which nothing waits, and which holds exactly one
condition, is written as that one; every other one gives a failure of a statement and leaves the
draft as it is. -/
theorem append_after_calls (d : Dialect) (t : Table) (calls : List WhereCall) (q : Option String)
    (draft : Draft) :
    (∀ before call after e, calls = before ++ call :: after →
      ¬CallFails { dialect := d, table := t } before →
      (run { dialect := d, table := t } before).failure? call = some e →
        e.isRepeatable = true ∧
        ((run { dialect := d, table := t } calls).append q).run.run draft = (.error e, draft)) ∧
    (¬CallFails { dialect := d, table := t } calls →
      (∀ c, (run { dialect := d, table := t } calls).pending = [] →
        (run { dialect := d, table := t } calls).clauses = [c] →
          ((run { dialect := d, table := t } calls).append q).run.run draft =
              (c.append d q).run.run draft ∧
            Writer.Gives (c.render d q draft) ((c.append d q).run.run draft)) ∧
      (¬((run { dialect := d, table := t } calls).pending = [] ∧
          ∃ c, (run { dialect := d, table := t } calls).clauses = [c]) →
        ∃ cause, ((run { dialect := d, table := t } calls).append q).run.run draft =
          (.error (.statement cause), draft))) := by
  constructor
  · rintro before call after e rfl fine failed
    refine ⟨isRepeatable_of_failure? failed, run_append_of_error (clause_of_fault ?_) q draft⟩
    rw [fault_run, firstFailure?_append, firstFailure?_eq_none_iff.mpr fine, firstFailure?, failed]
    rfl
  · intro fine
    have none : (run { dialect := d, table := t } calls).fault = none := by
      rw [fault_run, firstFailure?_eq_none_iff.mpr fine]
      rfl
    constructor
    · intro c pending only
      have written := run_append_of_ok (clause_of_finished none pending only) q draft
      rw [dialect_run] at written
      exact ⟨written, c.inPlace_append d q draft⟩
    · intro unfinished
      obtain ⟨cause, failed⟩ := clause_of_unfinished none unfinished
      exact ⟨cause, run_append_of_error failed q draft⟩

end Where

end Relmap
