import Relmap.Proofs.Statement.Legible
import Relmap.Proofs.Statement.Script

/-!
# Calls with free texts

The free texts of a statement come from its calls. If none of them has a placeholder of its own
(`Script.Fits`), then whatever the calls put together keeps it so, call after call, and the template
of the statement is legible (`Script.legible_template`).
-/

namespace Relmap

open Text
open Template (ofText ofArgument)

variable {d : Dialect}

/-! ### Tests -/

/-- A test whose free texts have no placeholders of their own. -/
def Test.Fits (d : Dialect) : Test → Prop
  | .inQuery _ query _ | .nonempty query _ => query.Meets (.legible d)
  | .raw sql args => (Leaf.raw sql args).Fits d
  | .compareRaw _ operator _ => d.Inert operator
  | _ => True

/-- The condition of a test has its free texts. -/
theorem Table.meets_clause {t : Table} {x : Test} {c : Clause} (hx : x.Fits d)
    (h : t.clause x = .ok c) : c.Meets (.legible d) := by
  have hsymbol : ∀ op : CompareOp, d.Inert op.symbol := fun op => by
    cases op <;> exact (Dialect.solid_of_plain (by decide)).inert
  cases makes_of_clause h with
  | compare r => exact hsymbol _
  | idEquals column r => exact hsymbol _
  | between a b => exact trivial
  | inList a rest => exact trivial
  | inQuery hwidth => exact hx
  | null => exact trivial
  | nonempty => exact hx
  | empty => exact hx
  | raw => exact hx
  | compareRaw => exact hx

/-! ### Conditions -/

/-- A waiting part without free texts that have placeholders. -/
def Pending.Fits (d : Dialect) : Pending → Prop
  | .connective _ left => left.Meets (.legible d)
  | .not => True

/-- A condition of a dialect without free texts that have placeholders. -/
structure Where.Fits (d : Dialect) (w : Where) : Prop where
  dialect : w.dialect = d
  clauses : ∀ c ∈ w.clauses, c.Meets (.legible d)
  pending : ∀ p ∈ w.pending, p.Fits d

/-- A call whose free texts have no placeholders of their own. -/
def WhereCall.Fits (d : Dialect) : WhereCall → Prop
  | .test x => x.Fits d
  | _ => True

theorem Pending.meets_foldl_join {ps : List Pending} {c : Clause} (hps : ∀ p ∈ ps, p.Fits d)
    (hc : c.Meets (.legible d)) : (ps.foldl Pending.join c).Meets (.legible d) := by
  induction ps generalizing c with
  | nil => exact hc
  | cons p rest ih =>
    have hp := hps p List.mem_cons_self
    have hjoin : (p.join c).Meets (.legible d) := by
      cases p with
      | connective op left => exact ⟨hp, hc, trivial⟩
      | not => exact hc
    exact ih (fun q hq => hps q (List.mem_cons_of_mem _ hq)) hjoin

namespace Where

theorem Fits.add {w : Where} {c : Clause} (hw : w.Fits d) (hc : c.Meets (.legible d)) :
    (w.add c).Fits d where
  dialect := hw.dialect
  clauses x hx := by
    rcases List.mem_cons.mp hx with rfl | hx
    · exact Pending.meets_foldl_join hw.pending hc
    · exact hw.clauses x hx
  pending p hp := by cases hp

/-- What a call does to a condition brings in no other free texts than the ones of the call. -/
theorem Step.fits {w w' : Where} {call : WhereCall} (h : Step w call w') (hw : w.Fits d)
    (hcall : call.Fits d) : w'.Fits d := by
  cases h with
  | fail h => exact ⟨hw.dialect, hw.clauses, hw.pending⟩
  | test h => exact hw.add (Table.meets_clause hcall h)
  | @connect op left rest h =>
    refine ⟨hw.dialect, fun c hc => hw.clauses c ?_, fun p hp => ?_⟩
    · rw [h]
      exact List.mem_cons_of_mem _ hc
    · rcases List.mem_cons.mp hp with rfl | hp
      · exact hw.clauses left (by simp [h])
      · exact hw.pending p hp
  | not =>
    refine ⟨hw.dialect, hw.clauses, fun p hp => ?_⟩
    rcases List.mem_cons.mp hp with rfl | hp
    · exact trivial
    · exact hw.pending p hp
  | @combine op count a b rest hcount h =>
    have hoperand : ∀ c ∈ a :: b :: rest, c.Meets (.legible d) := fun c hc => by
      rw [← h, List.mem_reverse] at hc
      exact hw.clauses c (List.mem_of_mem_take hc)
    have hdropped : Fits d { w with clauses := w.clauses.drop count } :=
      ⟨hw.dialect, fun c hc => hw.clauses c (List.mem_of_mem_drop hc), hw.pending⟩
    refine hdropped.add ⟨hoperand a (by simp), hoperand b (by simp),
      Clause.allMeet_iff.mpr fun c hc => ?_⟩
    exact hoperand c (by simp [hc])

theorem Fits.apply {w : Where} {call : WhereCall} (hw : w.Fits d) (hcall : call.Fits d) :
    (w.apply call).Fits d :=
  (step_apply w call).fits hw hcall

theorem Fits.condition {w : Where} (hw : w.Fits d) : w.condition.Meets (.legible d) := by
  unfold Where.condition
  split
  · rename_i c hc
    obtain ⟨-, -, hclauses⟩ := of_clause_eq_ok hc
    exact ⟨hw.dialect, hw.clauses c (by simp [hclauses])⟩
  · exact trivial

/-- A condition that is put together from nothing. -/
theorem fits_started {t : Table} {w : Option Where} (hw : ∀ x, w = some x → x.Fits d) :
    (started d t w).Fits d := by
  cases w with
  | some x => exact hw x rfl
  | none => exact ⟨rfl, fun c hc => (nomatch hc), fun p hp => nomatch hp⟩

end Where

theorem Condition.meets_ofWhere? {w : Option Where} (hw : ∀ x, w = some x → x.Fits d) :
    (Condition.ofWhere? w).Meets (.legible d) := by
  cases w with
  | some x => exact (hw x rfl).condition
  | none => exact trivial

/-! ### Queries -/

/-- A call whose free texts have no placeholders of their own. -/
def SelectCall.Fits (d : Dialect) : SelectCall → Prop
  | .count e | .having e | .orderByExpression e => d.Inert e
  | .restrict call => call.Fits d
  | .setWhere w => w.Fits d
  | _ => True

/-- A query whose free texts have no placeholders of their own. -/
structure Select.Fits (d : Dialect) (s : Select) : Prop where
  shape : s.shape.Fits d
  condition : ∀ w, s.condition = some w → w.Fits d

namespace Select

theorem fits_withField {s : SelectShape} (column : String) {change : String → SelectShape}
    (hs : s.Fits d) (h : ∀ name, (change name).Fits d) : (withField s column change).Fits d := by
  unfold withField
  split
  · exact h _
  · exact ⟨hs.dialect, hs.count, hs.having, hs.orderBy⟩

theorem fits_addColumns {s : SelectShape} (names : List String) (hs : s.Fits d) :
    (names.foldl addColumn s).Fits d := by
  induction names generalizing s with
  | nil => exact hs
  | cons name rest ih =>
    exact ih (fits_withField name hs fun _ => ⟨hs.dialect, hs.count, hs.having, hs.orderBy⟩)

theorem fits_started {s : Select} (hs : s.Fits d) : s.startedWhere.Fits d := by
  have h := Where.fits_started (t := s.shape.table) hs.condition
  rwa [← hs.shape.dialect] at h ⊢

theorem Fits.apply {s : Select} {call : SelectCall} (hs : s.Fits d) (hcall : call.Fits d) :
    (s.apply call).Fits d := by
  have hshape := hs.shape
  cases call with
  | columns names => exact ⟨fits_addColumns names hshape, hs.condition⟩
  | count e =>
    have he : ∀ x, some e = some x → d.Inert x := fun _ h => Option.some.inj h ▸ hcall
    exact ⟨⟨hshape.dialect, he, hshape.having, hshape.orderBy⟩, hs.condition⟩
  | having e =>
    have he : ∀ x, some e = some x → d.Inert x := fun _ h => Option.some.inj h ▸ hcall
    exact ⟨⟨hshape.dialect, hshape.count, he, hshape.orderBy⟩, hs.condition⟩
  | orderByExpression e =>
    refine ⟨⟨hshape.dialect, hshape.count, hshape.having, fun x hx => ?_⟩, hs.condition⟩
    rcases List.mem_append.mp hx with hx | hx
    · exact hshape.orderBy x hx
    · cases List.mem_singleton.mp hx
      exact hcall
  | orderBy column ascending =>
    have hsorted : ∀ name, SelectShape.Fits d
        { s.shape with orderBy := s.shape.orderBy ++ [.column name ascending] } := fun name => by
      refine ⟨hshape.dialect, hshape.count, hshape.having, fun x hx => ?_⟩
      rcases List.mem_append.mp hx with hx | hx
      · exact hshape.orderBy x hx
      · cases List.mem_singleton.mp hx
    exact ⟨fits_withField column hshape hsorted, hs.condition⟩
  | groupBy column =>
    have hgrouped :
        ∀ name, SelectShape.Fits d { s.shape with groupBy := s.shape.groupBy ++ [name] } :=
      fun _ => ⟨hshape.dialect, hshape.count, hshape.having, hshape.orderBy⟩
    exact ⟨fits_withField column hshape hgrouped, hs.condition⟩
  | startWhere => exact ⟨hshape, fun w hw => Option.some.inj hw ▸ fits_started hs⟩
  | restrict call => exact ⟨hshape, fun w hw => Option.some.inj hw ▸ (fits_started hs).apply hcall⟩
  | setWhere w => exact ⟨hshape, fun x hx => Option.some.inj hx ▸ hcall⟩
  | _ => exact ⟨⟨hshape.dialect, hshape.count, hshape.having, hshape.orderBy⟩, hs.condition⟩

theorem Fits.run {s : Select} {calls : List SelectCall} (hs : s.Fits d)
    (hcalls : ∀ call ∈ calls, call.Fits d) : (s.run calls).Fits d := by
  induction calls generalizing s with
  | nil => exact hs
  | cons call rest ih =>
    exact ih (hs.apply (hcalls call List.mem_cons_self)) fun c hc =>
      hcalls c (List.mem_cons_of_mem _ hc)

theorem fits_new (d : Dialect) (t : Table) : (Select.new d t).Fits d where
  shape := ⟨rfl, fun _ h => (nomatch h), fun _ h => (nomatch h), fun _ h => nomatch h⟩
  condition := fun _ h => nomatch h

/-- The template of a query without free texts that have placeholders is legible. -/
theorem Fits.legible_template {s : Select} (hs : s.Fits d) {t : Template}
    (ht : s.subQuery.template = .ok t) : t.Legible d :=
  (Demand.legible_ensures d).subQuery s.subQuery
    ⟨hs.shape, Condition.meets_ofWhere? hs.condition⟩ t ht

end Select

/-! ### Changes -/

/-- A call whose free texts have no placeholders of their own. -/
def UpdateCall.Fits (d : Dialect) : UpdateCall → Prop
  | .setExpression _ e => d.Inert e
  | .restrict call => call.Fits d
  | _ => True

/-- A call whose free texts have no placeholders of their own. -/
def DeleteCall.Fits (d : Dialect) : DeleteCall → Prop
  | .startWhere => True
  | .restrict call => call.Fits d

/-- An expression without placeholders, or a value. -/
def Assignment.Fits (d : Dialect) : Assignment → Prop
  | .value _ => True
  | .expression e => d.Inert e

/-- An UPDATE whose free texts have no placeholders of their own. -/
structure Update.Fits (d : Dialect) (u : Update) : Prop where
  dialect : u.dialect = d
  assignments : ∀ a ∈ u.assignments, a.2.Fits d
  condition : ∀ w, u.condition = some w → w.Fits d

/-- A DELETE whose free texts have no placeholders of their own. -/
structure Delete.Fits (d : Dialect) (s : Delete) : Prop where
  dialect : s.dialect = d
  condition : ∀ w, s.condition = some w → w.Fits d

/-- A condition is written after something else. -/
theorem Condition.digitNext_template {q : Option String} {c : Condition} {t : Template}
    (ht : Condition.template q c = .ok t) : digitNext false t.signs = false := by
  cases c with
  | absent =>
    cases ht
    rfl
  | broken e => cases ht
  | holds dialect clause =>
    obtain ⟨u, -, rfl⟩ := Outcome.map_eq_ok.mp ht
    rfl

theorem Condition.legible_template {q : Option String} {w : Option Where} {t : Template}
    (hw : ∀ x, w = some x → x.Fits d) (ht : Condition.template q (.ofWhere? w) = .ok t) :
    t.Legible d :=
  (Demand.legible_ensures d).ofCondition q _ (Condition.meets_ofWhere? hw) t ht

theorem Assignment.legible_template {a : Assignment} (ha : a.Fits d) (column : String) :
    (a.template d column).Legible d := by
  have hname : d.Solid (d.quotedName column ++ " = ") :=
    (Dialect.solid_quotedName column).append (Dialect.solid_of_plain (by decide))
  cases a with
  | value v => exact (Template.legible_ofArgument d v).afterText hname
  | expression e => exact (Template.legible_ofText ha).afterText hname

namespace Update

theorem legible_assignedTemplate {left : Template} {assignments : List (String × Assignment)}
    (hleft : left.Legible d) (h : ∀ a ∈ assignments, a.2.Fits d) :
    (assignedTemplate d left assignments).Legible d := by
  have hcomma : d.Solid ", " := Dialect.solid_of_plain (by decide)
  induction assignments generalizing left with
  | nil => exact hleft
  | cons a rest ih =>
    have ha := Assignment.legible_template (h a List.mem_cons_self) a.1
    exact ih (hleft.append (ha.afterText hcomma) rfl) fun b hb => h b (List.mem_cons_of_mem _ hb)

theorem fits_started {u : Update} (hu : u.Fits d) : u.startedWhere.Fits d := by
  have h := Where.fits_started (t := u.table) hu.condition
  rwa [← hu.dialect] at h ⊢

theorem Fits.assign {u : Update} (hu : u.Fits d) {a : Except Failure (String × Assignment)}
    (ha : ∀ x, a = .ok x → x.2.Fits d) : (u.assign a).Fits d := by
  unfold Update.assign
  cases a with
  | error e => exact ⟨hu.dialect, hu.assignments, hu.condition⟩
  | ok a =>
    refine ⟨hu.dialect, fun x hx => ?_, hu.condition⟩
    rcases List.mem_append.mp hx with hx | hx
    · exact hu.assignments x hx
    · cases List.mem_singleton.mp hx
      exact ha a rfl

theorem Fits.apply {u : Update} {call : UpdateCall} (hu : u.Fits d) (hcall : call.Fits d) :
    (u.apply call).Fits d := by
  cases call with
  | set column o =>
    refine hu.assign fun x hx => ?_
    simp only [Outcome.bind_eq_ok, Outcome.pure_eq_ok] at hx
    obtain ⟨f, -, a, -, rfl⟩ := hx
    exact trivial
  | setExpression column e =>
    refine hu.assign fun x hx => ?_
    simp only [Outcome.bind_eq_ok, Outcome.pure_eq_ok] at hx
    obtain ⟨f, -, rfl⟩ := hx
    exact hcall
  | startWhere =>
    exact ⟨hu.dialect, hu.assignments, fun w hw => Option.some.inj hw ▸ fits_started hu⟩
  | restrict call =>
    exact ⟨hu.dialect, hu.assignments,
      fun w hw => Option.some.inj hw ▸ (fits_started hu).apply hcall⟩

theorem Fits.run {u : Update} {calls : List UpdateCall} (hu : u.Fits d)
    (hcalls : ∀ call ∈ calls, call.Fits d) : (u.run calls).Fits d := by
  induction calls generalizing u with
  | nil => exact hu
  | cons call rest ih =>
    exact ih (hu.apply (hcalls call List.mem_cons_self)) fun c hc =>
      hcalls c (List.mem_cons_of_mem _ hc)

/-- The template of an UPDATE without free texts that have placeholders is legible. -/
theorem Fits.legible_wholeTemplate {u : Update} (hu : u.Fits d) {t : Template}
    (ht : u.wholeTemplate = .ok t) : t.Legible d := by
  have hfirst : d.Solid ("UPDATE " ++ d.quotedName u.table.name ++ " SET ") :=
    Dialect.solid_aroundName (by decide) (by decide) _
  have hblank : d.Inert " " := (Dialect.solid_of_plain (by decide)).inert
  unfold wholeTemplate at ht
  split at ht
  · cases ht
  · cases ht
  · rename_i a rest _ hassignments
    obtain ⟨body, hbody, rfl⟩ := Outcome.map_eq_ok.mp ht
    have hfit : ∀ b ∈ a :: rest, b.2.Fits d := hassignments ▸ hu.assignments
    have ha := Assignment.legible_template (hfit a List.mem_cons_self) a.1
    have hall :=
      legible_assignedTemplate (ha.afterText hfirst) fun b hb => hfit b (List.mem_cons_of_mem _ hb)
    rw [opening, hu.dialect]
    exact (hall.beforeText hblank rfl).append (Condition.legible_template hu.condition hbody)
      (Condition.digitNext_template hbody)

end Update

namespace Delete

theorem fits_started {s : Delete} (hs : s.Fits d) : s.startedWhere.Fits d := by
  have h := Where.fits_started (t := s.table) hs.condition
  rwa [← hs.dialect] at h ⊢

theorem Fits.apply {s : Delete} {call : DeleteCall} (hs : s.Fits d) (hcall : call.Fits d) :
    (s.apply call).Fits d := by
  cases call with
  | startWhere => exact ⟨hs.dialect, fun w hw => Option.some.inj hw ▸ fits_started hs⟩
  | restrict call =>
    exact ⟨hs.dialect, fun w hw => Option.some.inj hw ▸ (fits_started hs).apply hcall⟩

theorem Fits.run {s : Delete} {calls : List DeleteCall} (hs : s.Fits d)
    (hcalls : ∀ call ∈ calls, call.Fits d) : (s.run calls).Fits d := by
  induction calls generalizing s with
  | nil => exact hs
  | cons call rest ih =>
    exact ih (hs.apply (hcalls call List.mem_cons_self)) fun c hc =>
      hcalls c (List.mem_cons_of_mem _ hc)

/-- The template of a DELETE without free texts that have placeholders is legible. -/
theorem Fits.legible_wholeTemplate {s : Delete} (hs : s.Fits d) {t : Template}
    (ht : s.wholeTemplate = .ok t) : t.Legible d := by
  have hopening : d.Solid ("DELETE FROM " ++ d.quotedName s.table.name ++ " ") :=
    Dialect.solid_aroundName (by decide) (by decide) _
  obtain ⟨body, hbody, rfl⟩ := Outcome.map_eq_ok.mp ht
  rw [opening, hs.dialect]
  exact (Condition.legible_template hs.condition hbody).afterText hopening

end Delete

/-! ### Scripts -/

namespace Script

/-- A script whose calls have no placeholders in their free texts but the ones of pieces of SQL,
which are as many as their arguments. All its conditions and queries are of one dialect. -/
def Fits (d : Dialect) : Script → Prop
  | .select calls => ∀ call ∈ calls, call.Fits d
  | .update calls => ∀ call ∈ calls, call.Fits d
  | .delete calls => ∀ call ∈ calls, call.Fits d

/-- **A reading of the statement finds its slots** and no other placeholders. -/
theorem legible_template {s : Script} {t : Table} {u : Template} (hs : s.Fits d)
    (hu : s.template d t = .ok u) : u.Legible d := by
  have hnone : ∀ w : Where, (none : Option Where) = some w → w.Fits d := fun w h => nomatch h
  cases s with
  | select calls => exact ((Select.fits_new d t).run hs).legible_template hu
  | update calls =>
    have hfirst : Update.Fits d { dialect := d, table := t } :=
      ⟨rfl, fun a ha => (nomatch ha), hnone⟩
    obtain ⟨v, hv, rfl⟩ := Outcome.map_eq_ok.mp hu
    exact ((hfirst.run hs).legible_wholeTemplate hv).trimmed
  | delete calls =>
    have hfirst : Delete.Fits d { dialect := d, table := t } := ⟨rfl, hnone⟩
    obtain ⟨v, hv, rfl⟩ := Outcome.map_eq_ok.mp hu
    exact ((hfirst.run hs).legible_wholeTemplate hv).trimmed

end Script

end Relmap
