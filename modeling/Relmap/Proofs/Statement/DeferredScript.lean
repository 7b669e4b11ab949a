import Relmap.Proofs.Statement.DeferredCalls
import Relmap.Proofs.Statement.Script

/-!
# Statements with values left for later

The calls of a script can leave the values of operands for later: in tests of the condition and in
what an UPDATE sets. A condition may be replaced while a query is put together, and then what it
left is gone with it. As long as no call fails, the statements of both scripts come to the same
failure or to templates with the same signs (`Script.Defers.tracks`), and a query inside another
statement is one with arguments left for later (`Select.Defers.subQuery`).
-/

namespace Relmap

open Template (ofText Tracks)

/-! ### Conditions of statements -/

/-- The conditions of two statements, related unless a call on the first one failed. -/
inductive Where.UseDefers : Option Where → Option Where → Multiset Value → Prop
  | none : UseDefers none none 0
  | some {w w' : Where} {m : Multiset Value} (h : w.fault = Option.none → w.Defers w' m) :
    UseDefers (some w) (some w') m

namespace Where.UseDefers

variable {x x' : Option Where} {m n : Multiset Value}

theorem started (h : UseDefers x x' m) (d : Dialect) (t : Table)
    (hok : (Where.started d t x).fault = Option.none) :
    (Where.started d t x).Defers (Where.started d t x') m := by
  cases h with
  | none => exact zero_add (0 : Multiset Value) ▸ .mk .nil .nil
  | some h => exact h hok

theorem start (h : UseDefers x x' m) (d : Dialect) (t : Table) :
    UseDefers (Option.some (Where.started d t x)) (Option.some (Where.started d t x')) m :=
  .some (h.started d t)

theorem restrict (h : UseDefers x x' m) (d : Dialect) (t : Table) {call call' : WhereCall}
    (hcall : call.Defers call' n) :
    UseDefers (Option.some ((Where.started d t x).apply call))
      (Option.some ((Where.started d t x').apply call')) (m + n) := by
  refine .some fun hok => ?_
  obtain ⟨hbefore, hcallok⟩ := fault_of_apply hok
  exact (h.started d t hbefore).apply hcall hcallok

/-- The condition that is written, where no call failed. -/
theorem condition (h : UseDefers x x' m)
    (hok : ∀ w, x = Option.some w → w.fault = Option.none) :
    (Condition.ofWhere? x).Defers (Condition.ofWhere? x') m := by
  cases h with
  | none => exact .same .absent
  | some h => exact (h (hok _ rfl)).condition

end Where.UseDefers

/-! ### Queries -/

/-- A call with operands left for later, and what is left before and after it. -/
inductive SelectCall.Defers : SelectCall → SelectCall → Multiset Value → Multiset Value → Prop
  | same {call : SelectCall} (h : ∀ w, call ≠ .setWhere w) (m : Multiset Value) :
    Defers call call m m
  | restrict {call call' : WhereCall} {n : Multiset Value} (h : call.Defers call' n)
      (m : Multiset Value) : Defers (.restrict call) (.restrict call') m (m + n)
  | setWhere {w w' : Where} {n : Multiset Value} (h : w.Defers w' n) (m : Multiset Value) :
    Defers (.setWhere w) (.setWhere w') m n

/-- Calls with operands left for later, and what is left before and after them. -/
inductive SelectCall.AllDefer :
    List SelectCall → List SelectCall → Multiset Value → Multiset Value → Prop
  | nil (m : Multiset Value) : AllDefer [] [] m m
  | cons {call call' : SelectCall} {calls calls' : List SelectCall} {l m n : Multiset Value}
      (head : call.Defers call' l m) (tail : AllDefer calls calls' m n) :
    AllDefer (call :: calls) (call' :: calls') l n

/-- Queries that differ in what their conditions leave for later. -/
inductive Select.Defers : Select → Select → Multiset Value → Prop
  | mk {shape : SelectShape} {condition condition' : Option Where} {m : Multiset Value}
      (h : Where.UseDefers condition condition' m) :
    Defers ⟨shape, condition⟩ ⟨shape, condition'⟩ m

namespace Select.Defers

variable {s s' : Select} {m n : Multiset Value}

theorem new (d : Dialect) (t : Table) : (Select.new d t).Defers (.new d t) 0 := .mk .none

theorem apply (h : s.Defers s' m) {call call' : SelectCall} (hcall : call.Defers call' m n) :
    (s.apply call).Defers (s'.apply call') n := by
  obtain @⟨shape, condition, condition', _, h⟩ := h
  cases hcall with
  | restrict hcall => exact .mk (h.restrict shape.dialect shape.table hcall)
  | setWhere hw => exact .mk (.some fun _ => hw)
  | same hne =>
    cases call with
    | setWhere w => exact absurd rfl (hne w)
    | startWhere => exact .mk (h.start shape.dialect shape.table)
    | restrict call => exact add_zero m ▸ .mk (h.restrict shape.dialect shape.table (.same call))
    | _ => exact .mk h

theorem run (h : s.Defers s' m) {calls calls' : List SelectCall}
    (hcalls : SelectCall.AllDefer calls calls' m n) :
    (s.run calls).Defers (s'.run calls') n := by
  induction hcalls generalizing s s' with
  | nil => exact h
  | cons head _ ih => exact ih (h.apply head)

theorem kind (h : s.Defers s' m) : s'.kind = s.kind := by
  cases h
  rfl

/-- **A query whose calls leave values for later is a query inside that leaves them.** -/
theorem subQuery (h : s.Defers s' m) (hok : ∀ w, s.condition = some w → w.fault = none) :
    s.subQuery.Defers s'.subQuery m := by
  cases h with
  | mk h => exact .select (h.condition hok)

end Select.Defers

/-! ### UPDATE -/

/-- What a column is set to, perhaps later. -/
inductive Assignment.Defers :
    String × Assignment → String × Assignment → Multiset Value → Prop
  | value {column : String} {a a' : Argument} {m : Multiset Value} (h : a.Defers a' m) :
    Defers (column, .value a) (column, .value a') m
  | expression (column sql : String) : Defers (column, .expression sql) (column, .expression sql) 0

/-- A call with operands left for later. -/
inductive UpdateCall.Defers : UpdateCall → UpdateCall → Multiset Value → Prop
  | same (call : UpdateCall) : Defers call call 0
  | set {column : String} {o o' : Operand} {m : Multiset Value} (h : o.Defers o' m) :
    Defers (.set column o) (.set column o') m
  | restrict {call call' : WhereCall} {m : Multiset Value} (h : call.Defers call' m) :
    Defers (.restrict call) (.restrict call') m

/-- UPDATEs that differ in what they leave for later. -/
inductive Update.Defers : Update → Update → Multiset Value → Prop
  | mk {d : Dialect} {t : Table} {assignments assignments' : List (String × Assignment)}
      {condition condition' : Option Where} {fault : Option Failure} {m n : Multiset Value}
      (hassignments : Paired Assignment.Defers assignments assignments' m)
      (hcondition : Where.UseDefers condition condition' n) :
    Defers ⟨d, t, assignments, condition, fault⟩ ⟨d, t, assignments', condition', fault⟩ (m + n)

/-- A value that a column is set to gives an argument that is left for later. -/
theorem Operand.Defers.assigned {o o' : Operand} {m : Multiset Value} (h : o.Defers o' m)
    {column : String} {f : Field} {a : Argument} (ha : o.assigned column f = .ok a) :
    ∃ a', o'.assigned column f = .ok a' ∧ a.Defers a' m := by
  cases h with
  | same => exact ⟨a, ha, .same a⟩
  | late =>
    simp only [Operand.assigned, Argument.ofField, Outcome.bind_eq_ok, Outcome.pure_eq_ok] at ha
    obtain ⟨w, hw, rfl⟩ := ha
    exact ⟨_, rfl, .late hw⟩

namespace Update

/-- What is assigned if nothing went wrong. -/
theorem exists_of_assign {u : Update} {x : Except Failure (String × Assignment)}
    (hok : (u.assign x).fault = none) : ∃ a, x = .ok a := by
  cases x with
  | ok a => exact ⟨a, rfl⟩
  | error e =>
    have hor : (u.fault <|> some e) = none := hok
    rw [Option.orElse_eq_none] at hor
    exact absurd hor.2 (Option.some_ne_none e)

/-- A failure is never forgotten. -/
theorem fault_of_apply {u : Update} {call : UpdateCall} (hok : (u.apply call).fault = none) :
    u.fault = none := by
  have hassign : ∀ x, (u.assign x).fault = none → u.fault = none := by
    intro x hx
    obtain ⟨a, rfl⟩ := exists_of_assign hx
    exact hx
  cases call with
  | set column o => exact hassign _ hok
  | setExpression column sql => exact hassign _ hok
  | startWhere => exact hok
  | restrict call => exact hok

variable {u u' : Update} {m n : Multiset Value}

namespace Defers

theorem assign (h : u.Defers u' m) {a a' : String × Assignment} (ha : Assignment.Defers a a' n) :
    (u.assign (.ok a)).Defers (u'.assign (.ok a')) (m + n) := by
  obtain @⟨d, t, assignments, assignments', condition, condition', fault, l, k, hs, hcondition⟩ := h
  have hall : l + k + n = l + n + k := by ac_rfl
  rw [hall]
  exact .mk (hs.append (.single ha)) hcondition

theorem start (h : u.Defers u' m) : (u.apply .startWhere).Defers (u'.apply .startWhere) m := by
  obtain @⟨d, t, assignments, assignments', condition, condition', fault, l, k, hs, hcondition⟩ := h
  exact .mk hs (hcondition.start d t)

theorem restrict (h : u.Defers u' m) {call call' : WhereCall} (hcall : call.Defers call' n) :
    (u.apply (.restrict call)).Defers (u'.apply (.restrict call')) (m + n) := by
  obtain @⟨d, t, assignments, assignments', condition, condition', fault, l, k, hs, hcondition⟩ := h
  rw [add_assoc]
  exact .mk hs (hcondition.restrict d t hcall)

theorem table (h : u.Defers u' m) : u'.table = u.table := by
  cases h
  rfl

theorem set (h : u.Defers u' m) {column : String} {o o' : Operand} (ho : o.Defers o' n)
    (hok : (u.apply (.set column o)).fault = none) :
    (u.apply (.set column o)).Defers (u'.apply (.set column o')) (m + n) := by
  obtain ⟨entry, hentry⟩ := exists_of_assign hok
  have hleft := hentry
  simp only [Outcome.bind_eq_ok, Outcome.pure_eq_ok] at hentry
  obtain ⟨f, hf, a, ha, rfl⟩ := hentry
  obtain ⟨a', ha', hdefers⟩ := ho.assigned ha
  have hright : (do
      let f ← u'.table.field column
      return (f.column, Assignment.value (← o'.assigned column f))) =
        Except.ok (f.column, Assignment.value a') := by
    rw [h.table]
    exact Outcome.bind_eq_ok.mpr ⟨f, hf, Outcome.bind_eq_ok.mpr ⟨a', ha', rfl⟩⟩
  simp only [Update.apply]
  rw [hleft, hright]
  exact h.assign (.value hdefers)

/-- A call that does not fail sets the same column and adds what it leaves for later. -/
theorem apply (h : u.Defers u' m) {call call' : UpdateCall} (hcall : call.Defers call' n)
    (hok : (u.apply call).fault = none) : (u.apply call).Defers (u'.apply call') (m + n) := by
  cases hcall with
  | set ho => exact h.set ho hok
  | restrict hcall => exact h.restrict hcall
  | same =>
    cases call with
    | set column o => exact h.set (.same o) hok
    | restrict call => exact h.restrict (.same call)
    | startWhere =>
      rw [add_zero]
      exact h.start
    | setExpression column sql =>
      obtain ⟨entry, hentry⟩ := exists_of_assign hok
      have hleft := hentry
      simp only [Outcome.bind_eq_ok, Outcome.pure_eq_ok] at hentry
      obtain ⟨f, hf, rfl⟩ := hentry
      simp only [Update.apply, h.table]
      rw [hleft]
      exact h.assign (.expression f.column sql)

theorem run (h : u.Defers u' m) {calls calls' : List UpdateCall}
    (hcalls : Paired UpdateCall.Defers calls calls' n) (hok : (u.run calls).fault = none) :
    (u.run calls).Defers (u'.run calls') (m + n) :=
  hcalls.foldl (f := Update.apply) (S := Update.Defers) (P := fun u => u.fault = none)
    (fun _ _ hok => fault_of_apply hok) (fun _ _ _ _ _ _ h hcall hok => h.apply hcall hok) h hok

end Defers

theorem template_defers (d : Dialect) {a a' : String × Assignment} (h : Assignment.Defers a a' m) :
    (a.2.template d a.1).Defers (a'.2.template d a'.1) m := by
  cases h with
  | value h => exact (Template.Defers.argument d h).afterText _
  | expression column sql => exact .refl _

theorem assignedTemplate_defers (d : Dialect) {assignments assignments' : List (String × Assignment)}
    (h : Paired Assignment.Defers assignments assignments' n) {left left' : Template}
    (hleft : left.Defers left' m) :
    (assignedTemplate d left assignments).Defers (assignedTemplate d left' assignments')
      (m + n) := by
  induction h generalizing left left' m with
  | nil => rwa [add_zero]
  | cons head _ ih =>
    rw [← add_assoc]
    exact ih (hleft.append ((template_defers d head).afterText ", "))

/-- The whole UPDATE: what it sets comes before the condition. -/
theorem Defers.tracks (h : u.Defers u' m) (hok : ∀ w, u.condition = some w → w.fault = none) :
    Tracks u.wholeTemplate u'.wholeTemplate m := by
  obtain @⟨d, t, assignments, assignments', condition, condition', fault, l, k, hs, hcondition⟩ := h
  cases fault with
  | some e => exact .error e _
  | none =>
    cases hs with
    | nil => exact .error _ _
    | cons head tail =>
      have hfirst := (template_defers d head).afterText ("UPDATE " ++ d.quotedName t.name ++ " SET ")
      have hopening := (assignedTemplate_defers d tail hfirst).beforeText " "
      have hbody := Condition.Defers.tracks none (hcondition.condition hok)
      exact hbody.map fun _ _ ht => hopening.append ht

end Update

/-! ### DELETE -/

/-- A call with operands left for later. -/
inductive DeleteCall.Defers : DeleteCall → DeleteCall → Multiset Value → Prop
  | startWhere : Defers .startWhere .startWhere 0
  | restrict {call call' : WhereCall} {m : Multiset Value} (h : call.Defers call' m) :
    Defers (.restrict call) (.restrict call') m

/-- DELETEs that differ in what their conditions leave for later. -/
inductive Delete.Defers : Delete → Delete → Multiset Value → Prop
  | mk {d : Dialect} {t : Table} {condition condition' : Option Where} {m : Multiset Value}
      (h : Where.UseDefers condition condition' m) :
    Defers ⟨d, t, condition⟩ ⟨d, t, condition'⟩ m

namespace Delete.Defers

variable {s s' : Delete} {m n : Multiset Value}

theorem apply (h : s.Defers s' m) {call call' : DeleteCall} (hcall : call.Defers call' n) :
    (s.apply call).Defers (s'.apply call') (m + n) := by
  obtain @⟨d, t, condition, condition', _, h⟩ := h
  cases hcall with
  | startWhere =>
    rw [add_zero]
    exact .mk (h.start d t)
  | restrict hcall => exact .mk (h.restrict d t hcall)

theorem run (h : s.Defers s' m) {calls calls' : List DeleteCall}
    (hcalls : Paired DeleteCall.Defers calls calls' n) :
    (s.run calls).Defers (s'.run calls') (m + n) :=
  hcalls.foldl (f := Delete.apply) (S := Delete.Defers) (P := fun _ => True) (fun _ _ _ => trivial)
    (fun _ _ _ _ _ _ h hcall _ => h.apply hcall) h trivial

theorem tracks (h : s.Defers s' m) (hok : ∀ w, s.condition = some w → w.fault = none) :
    Tracks s.wholeTemplate s'.wholeTemplate m := by
  obtain @⟨d, t, condition, condition', _, h⟩ := h
  exact (Condition.Defers.tracks none (h.condition hok)).map fun _ _ ht => ht.afterText _

end Delete.Defers

/-! ### Scripts -/

/-- Scripts that differ in what they leave for later. -/
inductive Script.Defers : Script → Script → Multiset Value → Prop
  | select {calls calls' : List SelectCall} {m : Multiset Value}
      (h : SelectCall.AllDefer calls calls' 0 m) : Defers (.select calls) (.select calls') m
  | update {calls calls' : List UpdateCall} {m : Multiset Value}
      (h : Paired UpdateCall.Defers calls calls' m) : Defers (.update calls) (.update calls') m
  | delete {calls calls' : List DeleteCall} {m : Multiset Value}
      (h : Paired DeleteCall.Defers calls calls' m) : Defers (.delete calls) (.delete calls') m

namespace Script

variable (d : Dialect) (t : Table)

/-- The failure that calls left in the statement itself. -/
def fault : Script → Option Failure
  | .select calls => ((Select.new d t).run calls).shape.fault
  | .update calls => (Update.run { dialect := d, table := t } calls).fault
  | .delete _ => none

/-- No call fails, on the statement or on its condition. -/
structure NoCallFails (s : Script) : Prop where
  statement : s.fault d t = none
  condition : ∀ w, s.condition d t = some w → w.fault = none

variable {d t}

/-- **Leaving values for later does not change what a statement writes** but for the arguments. -/
theorem Defers.tracks {s s' : Script} {m : Multiset Value} (h : s.Defers s' m)
    (hok : s.NoCallFails d t) : Tracks (s.template d t) (s'.template d t) m := by
  cases h with
  | select h =>
    have hrun := (Select.Defers.new d t).run h
    exact (hrun.subQuery hok.condition).tracks
  | update h =>
    have hstart : Update.Defers { dialect := d, table := t } { dialect := d, table := t } (0 + 0) :=
      .mk .nil .none
    have hrun := hstart.run h hok.statement
    rw [zero_add, zero_add] at hrun
    exact (hrun.tracks hok.condition).map fun _ _ ht => ht.trimmed
  | delete h =>
    have hstart : Delete.Defers { dialect := d, table := t } { dialect := d, table := t } 0 :=
      .mk .none
    have hrun := hstart.run h
    rw [zero_add] at hrun
    exact (hrun.tracks hok.condition).map fun _ _ ht => ht.trimmed

theorem Defers.kind {s s' : Script} {m : Multiset Value} (h : s.Defers s' m) :
    s'.kind d t = s.kind d t := by
  cases h with
  | select h => exact ((Select.Defers.new d t).run h).kind
  | update => rfl
  | delete => rfl

end Script

end Relmap
