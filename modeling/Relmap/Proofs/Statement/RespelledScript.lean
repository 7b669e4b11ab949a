import Mathlib.Data.Option.Basic
import Relmap.Proofs.Statement.RespelledCalls
import Relmap.Proofs.Statement.Script

/-!
# Statements with columns respelled

Outside of the condition a statement looks its columns up and writes them as the table declares
them, so that their spelling never shows. In the condition they are written as they are spelled.
Hence two scripts that differ in the letter case of columns prepare the same statement if their
conditions are spelled in the same way, and otherwise statements whose texts differ in letter case
at most (`Script.spelling_shows_in_conditions_only`).
-/

namespace Relmap

open Text
open Outcome (Matched)
open Template (ofText)

variable {ρ : Respelling}

/-! ### Conditions of statements -/

/-- The conditions of two statements, where they have one. -/
abbrev Where.BothRespelled (ρ : Respelling) (x x' : Option Where) : Prop :=
  Option.Rel (Where.Respelled ρ) x x'

namespace Where.BothRespelled

variable {x x' : Option Where}

theorem started (h : BothRespelled ρ x x') (d : Dialect) (t : Table) :
    (Where.started d t x).Respelled ρ (Where.started d t x') := by
  cases h with
  | some h => exact h
  | none => exact ⟨rfl, rfl, .nil, .nil, rfl⟩

theorem start (h : BothRespelled ρ x x') (d : Dialect) (t : Table) :
    BothRespelled ρ (some (Where.started d t x)) (some (Where.started d t x')) :=
  .some (h.started d t)

theorem restrict (h : BothRespelled ρ x x') (d : Dialect) (t : Table) {call call' : WhereCall}
    (hcall : call.Respelled ρ call') :
    BothRespelled ρ (some ((Where.started d t x).apply call))
      (some ((Where.started d t x').apply call')) :=
  .some ((h.started d t).apply hcall)

theorem condition (h : BothRespelled ρ x x') :
    (Condition.ofWhere? x).Respelled ρ (Condition.ofWhere? x') := by
  cases h with
  | some h => exact h.condition
  | none => exact .same .absent

end Where.BothRespelled

theorem Where.Respelled.refl (w : Where) : w.Respelled ρ w := by
  refine ⟨rfl, rfl, List.forall₂_same.mpr fun c _ => .same c, List.forall₂_same.mpr ?_, rfl⟩
  intro p _
  cases p with
  | connective op left => exact .connective (.same left)
  | not => exact .not

/-! ### Queries -/

/-- A call with columns respelled: in any letter case where they are looked up and written as
declared, and as `ρ` allows in the condition. -/
inductive SelectCall.Respelled (ρ : Respelling) : SelectCall → SelectCall → Prop
  | same (call : SelectCall) : Respelled ρ call call
  | columns {names names' : List String}
      (h : List.Forall₂ (fun a b => sameName a b = true) names names') :
    Respelled ρ (.columns names) (.columns names')
  | groupBy {a b : String} (h : sameName a b = true) : Respelled ρ (.groupBy a) (.groupBy b)
  | orderBy {a b : String} {ascending : Bool} (h : sameName a b = true) :
    Respelled ρ (.orderBy a ascending) (.orderBy b ascending)
  | restrict {call call' : WhereCall} (h : call.Respelled ρ call') :
    Respelled ρ (.restrict call) (.restrict call')
  | setWhere {w w' : Where} (h : w.Respelled ρ w') : Respelled ρ (.setWhere w) (.setWhere w')

/-- Queries that differ in the columns of their conditions. -/
structure Select.Respelled (ρ : Respelling) (s s' : Select) : Prop where
  shape : s.shape.Agrees s'.shape
  condition : Where.BothRespelled ρ s.condition s'.condition

namespace SelectShape.Agrees

variable {s s' : SelectShape}

/-- A call that finds its column does the same on both sides, and one that does not is a failure on
both sides. -/
theorem withField (h : s.Agrees s') {a b : String} (hname : sameName a b = true)
    {change change' : String → SelectShape} (hchange : ∀ name, (change name).Agrees (change' name)) :
    (Select.withField s a change).Agrees (Select.withField s' b change') := by
  obtain @⟨e, fault⟩ := h
  unfold Select.withField
  dsimp only
  rcases (Table.field_matched (t := s.table) hname).ok_or_error with
    ⟨f, f', found, found', rfl⟩ | ⟨e₁, e₂, failed, failed'⟩
  · rw [found, found']
    exact hchange _
  · rw [failed, failed']
    exact .mk (s := { s with fault := s.fault <|> some e₁ })
      ((isSome_firstFailure e e₂).trans (isSome_firstFailure s.fault e₁).symm)

theorem addColumns (h : s.Agrees s') {names names' : List String}
    (hnames : List.Forall₂ (fun a b => sameName a b = true) names names') :
    (names.foldl Select.addColumn s).Agrees (names'.foldl Select.addColumn s') := by
  induction hnames generalizing s s' with
  | nil => exact h
  | cons head _ ih =>
    refine ih (h.withField head fun name => ?_)
    obtain ⟨fault⟩ := h
    exact .mk fault

theorem groupBy (h : s.Agrees s') {a b : String} (hname : sameName a b = true) :
    (Select.withField s a fun name => { s with groupBy := s.groupBy ++ [name] }).Agrees
      (Select.withField s' b fun name => { s' with groupBy := s'.groupBy ++ [name] }) := by
  refine h.withField hname fun name => ?_
  obtain ⟨fault⟩ := h
  exact .mk fault

theorem orderBy (h : s.Agrees s') {a b : String} (hname : sameName a b = true) (ascending : Bool) :
    (Select.withField s a fun name =>
        { s with orderBy := s.orderBy ++ [.column name ascending] }).Agrees
      (Select.withField s' b fun name =>
        { s' with orderBy := s'.orderBy ++ [.column name ascending] }) := by
  refine h.withField hname fun name => ?_
  obtain ⟨fault⟩ := h
  exact .mk fault

end SelectShape.Agrees

namespace Select.Respelled

variable {s s' : Select}

theorem new (d : Dialect) (t : Table) : (Select.new d t).Respelled ρ (.new d t) := ⟨.mk rfl, .none⟩

/-- A call keeps queries the same outside of their conditions. -/
theorem apply (h : s.Respelled ρ s') {call call' : SelectCall} (hcall : call.Respelled ρ call') :
    (s.apply call).Respelled ρ (s'.apply call') := by
  obtain ⟨shape, condition⟩ := s
  obtain ⟨shape', condition'⟩ := s'
  obtain ⟨hshape, hcondition⟩ := h
  have restrict {call call' : WhereCall} (hcall : call.Respelled ρ call') :
      Select.Respelled ρ (Select.apply ⟨shape, condition⟩ (.restrict call))
        (Select.apply ⟨shape', condition'⟩ (.restrict call')) := by
    refine ⟨hshape, ?_⟩
    obtain ⟨fault⟩ := hshape
    exact hcondition.restrict _ _ hcall
  cases hcall with
  | columns hnames => exact ⟨hshape.addColumns hnames, hcondition⟩
  | groupBy hname => exact ⟨hshape.groupBy hname, hcondition⟩
  | orderBy hname => exact ⟨hshape.orderBy hname _, hcondition⟩
  | restrict hcall => exact restrict hcall
  | setWhere hw => exact ⟨hshape, .some hw⟩
  | same =>
    cases call with
    | columns names =>
      exact ⟨hshape.addColumns (List.forall₂_same.mpr fun name _ => sameName_self name), hcondition⟩
    | groupBy column => exact ⟨hshape.groupBy (sameName_self column), hcondition⟩
    | orderBy column ascending => exact ⟨hshape.orderBy (sameName_self column) _, hcondition⟩
    | restrict call => exact restrict (.same call)
    | setWhere w => exact ⟨hshape, .some (.refl w)⟩
    | startWhere =>
      refine ⟨hshape, ?_⟩
      obtain ⟨fault⟩ := hshape
      exact hcondition.start _ _
    | distinct | count _ | having _ | orderByExpression _ | limit _ | offset _
    | qualifyColumns _ =>
      refine ⟨?_, hcondition⟩
      obtain ⟨fault⟩ := hshape
      exact .mk fault

theorem run (h : s.Respelled ρ s') {calls calls' : List SelectCall}
    (hcalls : List.Forall₂ (SelectCall.Respelled ρ) calls calls') :
    (s.run calls).Respelled ρ (s'.run calls') := by
  induction hcalls generalizing s s' with
  | nil => exact h
  | cons head _ ih => exact ih (h.apply head)

theorem kind (h : s.Respelled ρ s') : s'.kind = s.kind := by
  obtain ⟨shape, condition⟩ := s
  obtain ⟨shape', condition'⟩ := s'
  obtain ⟨⟨fault⟩, -⟩ := h
  rfl

/-- **A query whose calls are respelled is a query inside that is respelled.** -/
theorem subQuery (h : s.Respelled ρ s') : s.subQuery.Respelled ρ s'.subQuery :=
  .select h.shape h.condition.condition

end Select.Respelled

/-! ### UPDATE -/

/-- A call with columns respelled: in any letter case where it sets them, and as `ρ` allows in the
condition. -/
inductive UpdateCall.Respelled (ρ : Respelling) : UpdateCall → UpdateCall → Prop
  | same (call : UpdateCall) : Respelled ρ call call
  | set {a b : String} {o : Operand} (h : sameName a b = true) : Respelled ρ (.set a o) (.set b o)
  | setExpression {a b sql : String} (h : sameName a b = true) :
    Respelled ρ (.setExpression a sql) (.setExpression b sql)
  | restrict {call call' : WhereCall} (h : call.Respelled ρ call') :
    Respelled ρ (.restrict call) (.restrict call')

/-- UPDATEs that differ in the columns of their conditions. -/
structure Update.Respelled (ρ : Respelling) (u u' : Update) : Prop where
  dialect : u'.dialect = u.dialect
  table : u'.table = u.table
  assignments : u'.assignments = u.assignments
  condition : Where.BothRespelled ρ u.condition u'.condition
  fault : u'.fault.isSome = u.fault.isSome

namespace Update.Respelled

variable {u u' : Update}

theorem assign (h : u.Respelled ρ u') {x y : Except Failure (String × Assignment)}
    (hxy : Matched Eq x y) : (u.assign x).Respelled ρ (u'.assign y) := by
  cases hxy with
  | ok same =>
    cases same
    exact { h with assignments := congrArg (· ++ _) h.assignments }
  | error e e' =>
    exact { h with fault := (isSome_firstFailure _ _).trans (isSome_firstFailure _ _).symm }

theorem set (h : u.Respelled ρ u') {a b : String} (hname : sameName a b = true) (o : Operand) :
    (u.apply (.set a o)).Respelled ρ (u'.apply (.set b o)) := by
  refine h.assign ?_
  rw [h.table]
  refine (Table.field_matched hname).bind_eq fun f => ?_
  cases o with
  | value v => exact .refl (fun _ => rfl) _
  | late v => exact .refl (fun _ => rfl) _
  | column c => exact .error _ _

theorem setExpression (h : u.Respelled ρ u') {a b : String} (hname : sameName a b = true)
    (sql : String) :
    (u.apply (.setExpression a sql)).Respelled ρ (u'.apply (.setExpression b sql)) := by
  refine h.assign ?_
  rw [h.table]
  exact (Table.field_matched hname).bind_eq fun f => .ok rfl

theorem restrict (h : u.Respelled ρ u') {call call' : WhereCall} (hcall : call.Respelled ρ call') :
    (u.apply (.restrict call)).Respelled ρ (u'.apply (.restrict call')) := by
  refine { h with condition := ?_ }
  show Where.BothRespelled ρ (some ((Where.started u.dialect u.table u.condition).apply call))
    (some ((Where.started u'.dialect u'.table u'.condition).apply call'))
  rw [h.dialect, h.table]
  exact h.condition.restrict _ _ hcall

theorem apply (h : u.Respelled ρ u') {call call' : UpdateCall} (hcall : call.Respelled ρ call') :
    (u.apply call).Respelled ρ (u'.apply call') := by
  cases hcall with
  | set hname => exact h.set hname _
  | setExpression hname => exact h.setExpression hname _
  | restrict hcall => exact h.restrict hcall
  | same =>
    cases call with
    | set column o => exact h.set (sameName_self column) o
    | setExpression column sql => exact h.setExpression (sameName_self column) sql
    | restrict call => exact h.restrict (.same call)
    | startWhere =>
      refine { h with condition := ?_ }
      show Where.BothRespelled ρ (some (Where.started u.dialect u.table u.condition))
        (some (Where.started u'.dialect u'.table u'.condition))
      rw [h.dialect, h.table]
      exact h.condition.start _ _

theorem run (h : u.Respelled ρ u') {calls calls' : List UpdateCall}
    (hcalls : List.Forall₂ (UpdateCall.Respelled ρ) calls calls') :
    (u.run calls).Respelled ρ (u'.run calls') := by
  induction hcalls generalizing u u' with
  | nil => exact h
  | cons head _ ih => exact ih (h.apply head)

theorem template (h : u.Respelled ρ u') :
    Matched (Template.Alike ρ) u.wholeTemplate u'.wholeTemplate := by
  obtain ⟨d, t, assignments, condition, fault⟩ := u
  obtain ⟨d', t', assignments', condition', fault'⟩ := u'
  obtain ⟨hd, ht, hassignments, hcondition, hfault⟩ := h
  cases hd
  cases ht
  cases hassignments
  cases fault with
  | some e =>
    obtain ⟨e', rfl⟩ := Option.isSome_iff_exists.mp hfault
    exact .error e e'
  | none =>
    cases fault' with
    | some e' => cases hfault
    | none =>
      cases assignments with
      | nil => exact .error _ _
      | cons a rest =>
        exact (hcondition.condition.template none).map fun _ _ hbody =>
          Template.Alike.append (.refl _) hbody

end Update.Respelled

/-! ### DELETE -/

/-- A call with columns respelled. -/
inductive DeleteCall.Respelled (ρ : Respelling) : DeleteCall → DeleteCall → Prop
  | startWhere : Respelled ρ .startWhere .startWhere
  | restrict {call call' : WhereCall} (h : call.Respelled ρ call') :
    Respelled ρ (.restrict call) (.restrict call')

/-- DELETEs that differ in the columns of their conditions. -/
inductive Delete.Respelled (ρ : Respelling) : Delete → Delete → Prop
  | mk {d : Dialect} {t : Table} {condition condition' : Option Where}
      (h : Where.BothRespelled ρ condition condition') :
    Respelled ρ ⟨d, t, condition⟩ ⟨d, t, condition'⟩

namespace Delete.Respelled

variable {s s' : Delete}

theorem apply (h : s.Respelled ρ s') {call call' : DeleteCall} (hcall : call.Respelled ρ call') :
    (s.apply call).Respelled ρ (s'.apply call') := by
  obtain ⟨h⟩ := h
  cases hcall with
  | startWhere => exact .mk (h.start _ _)
  | restrict hcall => exact .mk (h.restrict _ _ hcall)

theorem run (h : s.Respelled ρ s') {calls calls' : List DeleteCall}
    (hcalls : List.Forall₂ (DeleteCall.Respelled ρ) calls calls') :
    (s.run calls).Respelled ρ (s'.run calls') := by
  induction hcalls generalizing s s' with
  | nil => exact h
  | cons head _ ih => exact ih (h.apply head)

theorem template (h : s.Respelled ρ s') :
    Matched (Template.Alike ρ) s.wholeTemplate s'.wholeTemplate := by
  obtain ⟨h⟩ := h
  exact (h.condition.template none).map fun _ _ hbody => Template.Alike.append (.refl _) hbody

end Delete.Respelled

/-! ### Scripts -/

/-- Scripts that differ in the spelling of columns: in any letter case outside of their conditions,
and as `ρ` allows in them. -/
inductive Script.Respelled (ρ : Respelling) : Script → Script → Prop
  | select {calls calls' : List SelectCall}
      (h : List.Forall₂ (SelectCall.Respelled ρ) calls calls') :
    Respelled ρ (.select calls) (.select calls')
  | update {calls calls' : List UpdateCall}
      (h : List.Forall₂ (UpdateCall.Respelled ρ) calls calls') :
    Respelled ρ (.update calls) (.update calls')
  | delete {calls calls' : List DeleteCall}
      (h : List.Forall₂ (DeleteCall.Respelled ρ) calls calls') :
    Respelled ρ (.delete calls) (.delete calls')

namespace Script

variable {d : Dialect} {t : Table} {s s' : Script}

theorem Respelled.template (h : s.Respelled ρ s') :
    Matched (Template.Alike ρ) (s.template d t) (s'.template d t) := by
  cases h with
  | select h => exact ((Select.Respelled.new d t).run h).subQuery.template
  | update h =>
    have start : Update.Respelled ρ { dialect := d, table := t } { dialect := d, table := t } :=
      ⟨rfl, rfl, rfl, .none, rfl⟩
    exact (start.run h).template.map fun _ _ ht => ht.trimmed
  | delete h =>
    have start : Delete.Respelled ρ { dialect := d, table := t } { dialect := d, table := t } :=
      .mk .none
    exact (start.run h).template.map fun _ _ ht => ht.trimmed

theorem Respelled.kind (h : s.Respelled ρ s') : s'.kind d t = s.kind d t := by
  cases h with
  | select h => exact ((Select.Respelled.new d t).run h).kind
  | update => rfl
  | delete => rfl

/-- Statements that differ in nothing but what the eye does not see. -/
theorem Respelled.prepare (h : s.Respelled ρ s') :
    Matched (fun p p' => ρ.Alike p.sql p'.sql ∧ p = { p' with sql := p.sql })
      (s.prepare d t) (s'.prepare d t) := by
  rw [prepare_eq_template, prepare_eq_template]
  refine h.template.map fun u u' hu => ⟨?_, ?_⟩
  · show (String.ofList _).toList.map _ = (String.ofList _).toList.map _
    rw [String.toList_ofList, String.toList_ofList]
    exact hu.text 0
  · rw [h.kind, hu.args]

/-! ### Columns as declared -/

end Script

/-- A column as the table declares it, if it does. -/
def Table.declared (t : Table) (column : String) : String :=
  match t.field? column with
  | some f => f.column
  | none => column

theorem Table.sameName_declared (t : Table) (column : String) :
    sameName column (t.declared column) = true := by
  unfold declared
  cases found : t.field? column with
  | none => exact sameName_self column
  | some f =>
    have same : sameName f.column column = true :=
      List.find?_some (p := fun g : Field => sameName g.column column) found
    rwa [sameName_comm] at same

/-- The call with its columns as the table declares them, outside of the condition. -/
def SelectCall.declared (t : Table) : SelectCall → SelectCall
  | .columns names => .columns (names.map t.declared)
  | .groupBy column => .groupBy (t.declared column)
  | .orderBy column ascending => .orderBy (t.declared column) ascending
  | call => call

/-- The call with its column as the table declares it, outside of the condition. -/
def UpdateCall.declared (t : Table) : UpdateCall → UpdateCall
  | .set column o => .set (t.declared column) o
  | .setExpression column sql => .setExpression (t.declared column) sql
  | call => call

namespace Script

/-- The script with all columns outside of the condition as the table declares them. -/
def declared (t : Table) : Script → Script
  | .select calls => .select (calls.map (SelectCall.declared t))
  | .update calls => .update (calls.map (UpdateCall.declared t))
  | .delete calls => .delete calls

theorem respelled_declared (s : Script) (t : Table) : s.Respelled .exact (s.declared t) := by
  cases s with
  | select calls =>
    refine .select (List.forall₂_map_right_iff.mpr (List.forall₂_same.mpr fun call _ => ?_))
    cases call with
    | columns names =>
      have each : List.Forall₂ (fun a b => sameName a b = true) names (names.map t.declared) :=
        List.forall₂_map_right_iff.mpr (List.forall₂_same.mpr fun _ _ => t.sameName_declared _)
      exact .columns each
    | groupBy column => exact .groupBy (t.sameName_declared column)
    | orderBy column ascending => exact .orderBy (t.sameName_declared column)
    | _ => exact .same _
  | update calls =>
    refine .update (List.forall₂_map_right_iff.mpr (List.forall₂_same.mpr fun call _ => ?_))
    cases call with
    | set column o => exact .set (t.sameName_declared column)
    | setExpression column sql => exact .setExpression (t.sameName_declared column)
    | _ => exact .same _
  | delete calls =>
    refine .delete (List.forall₂_same.mpr fun call _ => ?_)
    cases call with
    | startWhere => exact .startWhere
    | restrict call => exact .restrict (.same call)

/-- **The letter case of columns shows in conditions only.** Outside of the condition every column
is written as the table declares it, however it was spelled: the statement is that of the script
with the declared columns, and that of every script whose condition is spelled in the same way. If
columns of the condition change their letter case too, the statement has the same arguments, and its
text changes in letter case at most. -/
theorem spelling_shows_in_conditions_only (d : Dialect) (t : Table) (s : Script) :
    (∀ p, s.prepare d t = .ok p ↔ (s.declared t).prepare d t = .ok p) ∧
    (∀ s', s.Respelled .exact s' → ∀ p, s.prepare d t = .ok p ↔ s'.prepare d t = .ok p) ∧
    ∀ s', s.Respelled .caseless s' → ∀ p, s.prepare d t = .ok p →
      ∃ p', s'.prepare d t = .ok p' ∧ p'.kind = p.kind ∧ p'.args = p.args ∧
        sameName p'.sql p.sql = true := by
  have exactly {s' : Script} (h : s.Respelled .exact s') (p : Prepared) :
      s.prepare d t = .ok p ↔ s'.prepare d t = .ok p := by
    rcases h.prepare.ok_or_error with ⟨q, q', hq, hq', alike, same⟩ | ⟨e, e', he, he'⟩
    · have text : q.sql = q'.sql := by
        rw [Respelling.Alike, Respelling.exact, List.map_id, List.map_id] at alike
        exact String.ext alike
      rw [hq, hq', same, text]
    · rw [he, he']
      exact ⟨fun h => (nomatch h), fun h => (nomatch h)⟩
  refine ⟨exactly (s.respelled_declared t), fun s' h => exactly h, fun s' h p hp => ?_⟩
  rcases h.prepare.ok_or_error with ⟨q, q', hq, hq', alike, same⟩ | ⟨e, e', he, -⟩
  · cases hp.symm.trans hq
    refine ⟨q', hq', ?_, ?_, sameName_iff.mpr alike.symm⟩
    · rw [same]
    · rw [same]
  · rw [he] at hp
    cases hp

/-- A selected column is written as declared, and a column of the condition as it is spelled. -/
theorem selected_name_as_declared : ∃ t p,
    TableDecl.toTable ⟨"person", [{ name := "id", type := .long },
      { name := "name", type := .string }]⟩ .sqlite = .ok t ∧
    (Script.select [.columns ["NAME"], .restrict (.test (.null "Name" false))]).prepare .sqlite t =
      .ok p ∧
    p.sql = "SELECT \"name\" FROM \"person\" WHERE \"Name\" IS NULL" ∧
    (Script.select [.columns ["name"], .restrict (.test (.null "Name" false))]).prepare .sqlite t =
      .ok p ∧
    ∃ p', (Script.select [.columns ["nAmE"], .restrict (.test (.null "NAME" false))]).prepare
      .sqlite t = .ok p' ∧ sameName p'.sql p.sql = true := by
  obtain ⟨t, p, table, prepared, sql⟩ : ∃ t p, TableDecl.toTable ⟨"person",
        [{ name := "id", type := .long }, { name := "name", type := .string }]⟩ .sqlite = .ok t ∧
      (Script.select [.columns ["NAME"], .restrict (.test (.null "Name" false))]).prepare .sqlite
        t = .ok p ∧
      p.sql = "SELECT \"name\" FROM \"person\" WHERE \"Name\" IS NULL" := ⟨_, _, rfl, rfl, rfl⟩
  obtain ⟨-, exactly, caseless⟩ := spelling_shows_in_conditions_only .sqlite t
    (.select [.columns ["NAME"], .restrict (.test (.null "Name" false))])
  have sameCondition : Script.Respelled .exact
      (.select [.columns ["NAME"], .restrict (.test (.null "Name" false))])
      (.select [.columns ["name"], .restrict (.test (.null "Name" false))]) :=
    .select (.cons (.columns (.cons (by decide) .nil)) (.cons (.same _) .nil))
  have otherCondition : Script.Respelled .caseless
      (.select [.columns ["NAME"], .restrict (.test (.null "Name" false))])
      (.select [.columns ["nAmE"], .restrict (.test (.null "NAME" false))]) :=
    .select (.cons (.columns (.cons (by decide) .nil))
      (.cons (.restrict (.test (.null (show sameName "Name" "NAME" = true by decide)))) .nil))
  obtain ⟨p', prepared', -, -, text⟩ := caseless _ otherCondition p prepared
  exact ⟨t, p, table, prepared, sql, (exactly _ sameCondition p).mp prepared, p', prepared', text⟩

/-- Two DELETEs that differ in the letter case of a known column have different texts. -/
theorem spelling_shows_in_delete : ∃ t p p',
    TableDecl.toTable ⟨"person", [{ name := "id", type := .long },
      { name := "name", type := .string }]⟩ .sqlite = .ok t ∧
    Script.Respelled .caseless (.delete [.restrict (.test (.null "NAME" false))])
      (.delete [.restrict (.test (.null "name" false))]) ∧
    (Script.delete [.restrict (.test (.null "NAME" false))]).prepare .sqlite t = .ok p ∧
    (Script.delete [.restrict (.test (.null "name" false))]).prepare .sqlite t = .ok p' ∧
    p.sql = "DELETE FROM \"person\" WHERE \"NAME\" IS NULL" ∧
    p'.sql = "DELETE FROM \"person\" WHERE \"name\" IS NULL" :=
  ⟨_, _, _, rfl, .delete (.cons (.restrict (.test (.null
    (show sameName "NAME" "name" = true by decide)))) .nil), rfl, rfl, rfl, rfl⟩

end Script

end Relmap
