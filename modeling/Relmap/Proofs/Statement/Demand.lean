import Relmap.Proofs.Outcome
import Relmap.Proofs.Statement.Placement

/-!
# What holds of every part of a condition

A demand says something of the tests, the queries and the templates made elsewhere that a condition
is put together from, at any depth, and fixes the dialect of all conditions (`Clause.Meets`). A
property of templates that the parts have, and that the ways of putting templates together keep
(`Demand.Ensures`), is a property of the template of every condition that meets the demand
(`Demand.Ensures.clause`).
-/

namespace Relmap

open Template (ofText ofArgument)

/-- What is asked of the parts of a condition. -/
structure Demand where
  /-- The dialect of every condition. -/
  dialect : Dialect
  leaf : Leaf → Prop
  shape : SelectShape → Prop
  /-- Asked of the template of a query made elsewhere. -/
  outside : Template → Prop

mutual

/-- All parts of a condition are as demanded. -/
def Clause.Meets (D : Demand) : Clause → Prop
  | .leaf l => D.leaf l
  | .inQuery _ query _ | .nonempty query => SubQuery.Meets D query
  | .many _ first second rest =>
    Clause.Meets D first ∧ Clause.Meets D second ∧ Clause.AllMeet D rest
  | .not operand => Clause.Meets D operand

/-- All parts of all conditions of a list are as demanded. -/
def Clause.AllMeet (D : Demand) : List Clause → Prop
  | [] => True
  | c :: rest => Clause.Meets D c ∧ Clause.AllMeet D rest

/-- All parts of a query are as demanded. -/
def SubQuery.Meets (D : Demand) : SubQuery → Prop
  | .select shape condition => D.shape shape ∧ Condition.Meets D condition
  | .outside outcome _ => ∀ t, outcome = .ok t → D.outside t

/-- All parts of the condition of a query are as demanded. -/
def Condition.Meets (D : Demand) : Condition → Prop
  | .absent | .broken _ => True
  | .holds dialect clause => dialect = D.dialect ∧ Clause.Meets D clause

end

theorem Clause.allMeet_iff {D : Demand} {cs : List Clause} :
    Clause.AllMeet D cs ↔ ∀ c ∈ cs, c.Meets D := by
  induction cs with
  | nil => simp [Clause.AllMeet]
  | cons c rest ih => simp [Clause.AllMeet, ih]

/-- The texts before and after a part of a condition. -/
inductive Bracket (d : Dialect) : String → String → Prop
  | operand : Bracket d "(" ") "
  | negation : Bracket d "(NOT " ") "
  | negatedConnective : Bracket d "(NOT (" ")) "
  | nonempty : Bracket d "EXISTS (" ") "
  | member (table : Option String) (column : String) (negated : Bool) :
    Bracket d (d.column table column ++ if negated then " NOT IN (" else " IN (") ") "

/-- Parts as demanded have a property, and putting them together keeps it. -/
structure Demand.Ensures (D : Demand) (Q : Template → Prop) : Prop where
  empty : Q (ofText "")
  leaf : ∀ table l, D.leaf l → Q (l.template D.dialect table)
  outside : ∀ t, D.outside t → Q t
  query : ∀ s window t, D.shape s → s.dialect.window s.limit s.offset = .ok window → Q t →
    Q (ofText s.opening ++ t ++ ofText (s.grouping ++ window))
  trimmed : ∀ t, Q t → Q t.trimmed
  enclosed : ∀ s e t, Bracket D.dialect s e → Q t → Q (ofText s ++ t ++ ofText e)
  joined : ∀ op t u, Q t → Q u → Q (t.joined op u)
  afterNot : ∀ t, Q t → Q (ofText "NOT " ++ t)
  afterWhere : ∀ t, Q t → Q (ofText "WHERE " ++ t)

namespace Demand.Ensures

variable {D : Demand} {Q : Template → Prop}

theorem operand (h : D.Ensures Q) (op : Connective) (kind : ClauseKind) {t : Template} (ht : Q t) :
    Q (t.operand op kind) := by
  unfold Template.operand
  split
  · split
    · exact ht
    · exact h.enclosed _ _ _ .operand (h.trimmed t ht)
  · exact ht

theorem negation (h : D.Ensures Q) (kind : ClauseKind) {t : Template} (ht : Q t) :
    Q (Template.negation kind t) := by
  cases kind with
  | nonempty => exact h.afterNot t ht
  | connective op => exact h.enclosed _ _ _ .negatedConnective (h.trimmed t ht)
  | leaf => exact h.enclosed _ _ _ .negation (h.trimmed t ht)
  | not => exact h.enclosed _ _ _ .negation (h.trimmed t ht)

theorem shape (h : D.Ensures Q) {s : SelectShape} (hs : D.shape s) {out : Except Failure Template}
    (ho : ∀ t, out = .ok t → Q t) {t : Template} (ht : s.template out = .ok t) : Q t := by
  unfold SelectShape.template at ht
  split at ht
  · cases ht
  · simp only [Outcome.bind_eq_ok, Outcome.pure_eq_ok] at ht
    obtain ⟨u, hu, window, hw, rfl⟩ := ht
    exact h.query s window u hs hw (ho u hu)

mutual

/-- **The template of a condition whose parts are as demanded** has the property. -/
theorem clause (h : D.Ensures Q) (table : Option String) :
    ∀ c : Clause, c.Meets D → ∀ t, c.template D.dialect table = .ok t → Q t
  | .leaf l, hc, t, ht => by
    cases ht
    exact h.leaf table l hc
  | .inQuery column query negated, hc, t, ht => by
    simp only [Clause.template, Outcome.map_eq_ok] at ht
    obtain ⟨u, hu, rfl⟩ := ht
    exact h.enclosed _ _ u (.member table column negated) (subQuery h query hc u hu)
  | .many op first second rest, hc, t, ht => by
    simp only [Clause.template, Outcome.bind_eq_ok] at ht
    obtain ⟨a, ha, b, hb, ht⟩ := ht
    have h₁ := h.operand op first.kind (clause h table first hc.1 a ha)
    have h₂ := h.operand op second.kind (clause h table second hc.2.1 b hb)
    exact further h table op rest hc.2.2 _ (h.joined op _ _ h₁ h₂) t ht
  | .not operand, hc, t, ht => by
    obtain ⟨u, hu, rfl⟩ := Outcome.map_eq_ok.mp ht
    exact h.negation operand.kind (clause h table operand hc u hu)
  | .nonempty query, hc, t, ht => by
    simp only [Clause.template, Outcome.map_eq_ok] at ht
    obtain ⟨u, hu, rfl⟩ := ht
    exact h.enclosed _ _ u .nonempty (subQuery h query hc u hu)

theorem further (h : D.Ensures Q) (table : Option String) (op : Connective) :
    ∀ cs : List Clause, Clause.AllMeet D cs → ∀ left, Q left → ∀ t,
      Clause.joinedTemplate D.dialect table op left cs = .ok t → Q t
  | [], _, left, hleft, t, ht => by
    cases ht
    exact hleft
  | c :: rest, hcs, left, hleft, t, ht => by
    simp only [Clause.joinedTemplate, Outcome.bind_eq_ok] at ht
    obtain ⟨a, ha, ht⟩ := ht
    have h₁ := h.operand op c.kind (clause h table c hcs.1 a ha)
    exact further h table op rest hcs.2 _ (h.joined op _ _ hleft h₁) t ht

theorem subQuery (h : D.Ensures Q) : ∀ q : SubQuery, q.Meets D → ∀ t, q.template = .ok t → Q t
  | .select shape condition, hq, t, ht => by
    obtain ⟨u, hu, rfl⟩ := Outcome.map_eq_ok.mp ht
    exact h.trimmed u (h.shape hq.1 (ofCondition h shape.qualifier condition hq.2) hu)
  | .outside outcome _, hq, t, ht => h.outside t (hq t ht)

theorem ofCondition (h : D.Ensures Q) (table : Option String) :
    ∀ c : Condition, c.Meets D → ∀ t, Condition.template table c = .ok t → Q t
  | .absent, _, t, ht => by
    cases ht
    exact h.empty
  | .broken _, _, t, ht => nomatch ht
  | .holds dialect c, hc, t, ht => by
    obtain ⟨hd, hc⟩ := hc
    subst hd
    obtain ⟨u, hu, rfl⟩ := Outcome.map_eq_ok.mp ht
    exact h.afterWhere u (clause h table c hc u hu)

end

end Demand.Ensures

end Relmap
