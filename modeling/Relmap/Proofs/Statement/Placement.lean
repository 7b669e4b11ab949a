import Relmap.Proofs.Outcome
import Relmap.Proofs.Statement.Template
import Relmap.Statement.Select

/-!
# Conditions and queries wherever they stand

What a condition or a query writes is a template that the condition or query fixes: no text and no
argument written before changes it, and where it fails it fails everywhere
(`Clause.writes_template`, `SubQuery.writes_template`). A query made elsewhere is taken to write a
template too; what it is made of is not looked at.
-/

namespace Relmap

open Text
open Draft (Writes write_eq_fill ask_eq_fill askMore_eq_fill fill_append)
open Template (ofText ofArgument ofMoreArguments)

/-! ### Tests -/

/-- The template of the right side of a comparison. -/
def Rhs.template (d : Dialect) (table : Option String) : Rhs → Template
  | .argument a => ofArgument d a
  | .column c => ofText (d.column (c.table <|> table) c.column)

/-- The signs of a piece of SQL: its placeholders outside of quotes are slots, numbered on from
`count`. -/
def Dialect.rawSigns (d : Dialect) (count : Nat) (quote : Option Char) :
    List Char → List (Sign Slot)
  | [] => []
  | c :: r =>
    if quote = none ∧ c = '?' then .mark ⟨d, count + 1⟩ :: rawSigns d (count + 1) none r
    else .char c :: rawSigns d count (quoteAfter quote c) r

/-- The template of a test. -/
def Leaf.template (d : Dialect) (table : Option String) : Leaf → Template
  | .compare column operator rhs =>
    ofText (d.column table column ++ " " ++ operator ++ " ") ++ rhs.template d table ++ ofText " "
  | .between column low high =>
    ofText (d.column table column ++ " BETWEEN ") ++ ofArgument d low ++ ofText " AND " ++
      ofArgument d high ++ ofText " "
  | .inList column first rest negated =>
    ofText (d.column table column ++ if negated then " NOT IN (" else " IN (") ++
      ofArgument d first ++ ofMoreArguments d rest ++ ofText ") "
  | .null column negated =>
    ofText (d.column table column ++ if negated then " IS NOT NULL " else " IS NULL ")
  | .raw sql args => ⟨d.rawSigns 0 none sql.toList ++ unmarked [' '], args⟩

/-- Numbering the placeholders of a piece of SQL is numbering its slots. -/
theorem Dialect.renumber_eq_expand (d : Dialect) (before count : Nat) (quote : Option Char)
    (sql : List Char) :
    d.renumber (before + count) quote sql =
      expand (Slot.placeholder before) (d.rawSigns count quote sql) := by
  induction sql generalizing count quote with
  | nil => rfl
  | cons c r ih =>
    rw [renumber, rawSigns]
    split
    · rw [expand_mark, ← ih, Slot.placeholder, Nat.add_assoc]
    · rw [expand_char, ← ih]

theorem Rhs.render_eq_fill (d : Dialect) (table : Option String) (draft : Draft) (r : Rhs) :
    r.render d table draft = draft.fill (r.template d table) := by
  cases r with
  | argument a => exact ask_eq_fill draft d a
  | column c => exact write_eq_fill draft _

theorem Leaf.render_eq_fill (d : Dialect) (table : Option String) (draft : Draft) (l : Leaf) :
    l.render d table draft = draft.fill (l.template d table) := by
  cases l with
  | compare column operator rhs =>
    simp only [render, template, fill_append, write_eq_fill, Rhs.render_eq_fill]
  | between column low high => simp only [render, template, fill_append, write_eq_fill, ask_eq_fill]
  | inList column first rest negated =>
    simp only [render, template, fill_append, write_eq_fill, ask_eq_fill, askMore_eq_fill]
  | null column negated => simp only [render, template, write_eq_fill]
  | raw sql args =>
    have htext := d.renumber_eq_expand draft.args.length 0 none sql.toList
    rw [Nat.add_zero] at htext
    simp only [render, template, Draft.fill, Template.text, expand_append, expand_unmarked, htext,
      String.ofList_append, String.append_assoc]

/-! ### Trees -/

/-- An operand of a connective: in parentheses if it is under the other connective. -/
def Template.operand (op : Connective) (kind : ClauseKind) (t : Template) : Template :=
  match kind with
  | .connective inner => if inner = op then t else ofText "(" ++ t.trimmed ++ ofText ") "
  | _ => t

/-- Two operands of a connective. -/
def Template.joined (op : Connective) (t u : Template) : Template := t ++ (ofText op.separator ++ u)

/-- The negation of an operand. -/
def Template.negation (kind : ClauseKind) (t : Template) : Template :=
  match kind with
  | .nonempty => ofText "NOT " ++ t
  | .connective _ => ofText "(NOT (" ++ t.trimmed ++ ofText ")) "
  | .leaf | .not => ofText "(NOT " ++ t.trimmed ++ ofText ") "

/-- The template of a query, given the one of its condition. -/
def SelectShape.template (s : SelectShape) (condition : Except Failure Template) :
    Except Failure Template :=
  match s.fault with
  | some e => .error e
  | none => do
    let restriction ← condition
    let window ← s.dialect.window s.limit s.offset
    return ofText s.opening ++ restriction ++ ofText (s.grouping ++ window)

mutual

/-- The template of a condition. -/
def Clause.template (d : Dialect) (table : Option String) : Clause → Except Failure Template
  | .leaf l => .ok (l.template d table)
  | .inQuery column query negated =>
    (SubQuery.template query).map fun t =>
      ofText (d.column table column ++ if negated then " NOT IN (" else " IN (") ++ t ++ ofText ") "
  | .many op first second rest => do
    let a ← Clause.template d table first
    let b ← Clause.template d table second
    Clause.joinedTemplate d table op
      ((a.operand op first.kind).joined op (b.operand op second.kind)) rest
  | .not operand => (Clause.template d table operand).map (Template.negation operand.kind)
  | .nonempty query => (SubQuery.template query).map fun t => ofText "EXISTS (" ++ t ++ ofText ") "

/-- The template of an operand and further operands of a connective. -/
def Clause.joinedTemplate (d : Dialect) (table : Option String) (op : Connective)
    (left : Template) :
    List Clause → Except Failure Template
  | [] => .ok left
  | c :: rest => do
    let a ← Clause.template d table c
    Clause.joinedTemplate d table op (left.joined op (a.operand op c.kind)) rest

/-- The template of a query inside a statement. -/
def SubQuery.template : SubQuery → Except Failure Template
  | .select shape condition =>
    (shape.template (Condition.template shape.qualifier condition)).map Template.trimmed
  | .outside outcome _ => outcome

/-- The template of the condition of a query. -/
def Condition.template (table : Option String) : Condition → Except Failure Template
  | .absent => .ok (ofText "")
  | .broken cause => .error cause
  | .holds dialect clause => (Clause.template dialect table clause).map (ofText "WHERE " ++ ·)

end

/-! ### Writing -/

theorem Draft.Writes.operand {part : Draft → Except Failure Draft} {out : Except Failure Template}
    (h : Writes part out) (op : Connective) (kind : ClauseKind) :
    Writes (fun d => d.operand op kind part) (out.map (Template.operand op kind)) := by
  have hsame : Writes part (out.map fun t => t) := fun d => by
    rw [h d]
    cases out <;> rfl
  cases kind with
  | connective inner =>
    unfold Draft.operand Template.operand
    by_cases hop : inner = op
    · simpa only [hop, if_true] using hsame
    · simpa only [hop, if_false] using h.enclosed "(" ") "
  | leaf => exact hsame
  | not => exact hsame
  | nonempty => exact hsame

theorem Draft.Writes.negation {part : Draft → Except Failure Draft} {out : Except Failure Template}
    (h : Writes part out) (kind : ClauseKind) :
    Writes (fun d => d.negation kind part) (out.map (Template.negation kind)) := by
  cases kind with
  | nonempty => exact h.afterText "NOT "
  | connective inner => exact h.enclosed "(NOT (" ")) "
  | leaf => exact h.enclosed "(NOT " ") "
  | not => exact h.enclosed "(NOT " ") "

theorem Draft.Writes.joined {part : Draft → Except Failure Draft} {out : Except Failure Template}
    (h : Writes part out) (op : Connective) (kind : ClauseKind) (left : Template) (draft : Draft) :
    ((draft.fill left).write op.separator).operand op kind part =
      out.map fun t => draft.fill (left.joined op (t.operand op kind)) := by
  refine ((h.operand op kind).afterText op.separator (draft.fill left)).trans ?_
  rw [Outcome.map_map, Outcome.map_map]
  simp only [Template.joined, fill_append]

theorem SelectShape.writes_template (s : SelectShape) {condition : Draft → Except Failure Draft}
    {out : Except Failure Template} (h : Writes condition out) :
    Writes (s.render condition) (s.template out) := by
  intro d
  unfold SelectShape.render SelectShape.template
  cases s.fault with
  | some e => rfl
  | none =>
    simp only [h (d.write s.opening)]
    cases out with
    | error e => rfl
    | ok t =>
      cases s.dialect.window s.limit s.offset with
      | error e => rfl
      | ok window =>
        change Except.ok _ =
          Except.ok (d.fill (ofText s.opening ++ t ++ ofText (s.grouping ++ window)))
        rw [fill_append, fill_append, write_eq_fill, write_eq_fill]

mutual

/-- **A condition writes its template**, whatever was written before. -/
theorem Clause.writes_template (d : Dialect) (table : Option String) :
    ∀ c : Clause, Writes (c.render d table) (c.template d table)
  | .leaf l => fun draft => congrArg Except.ok (l.render_eq_fill d table draft)
  | .inQuery column query negated => by
    simp only [Clause.render, Clause.template]
    exact (SubQuery.writes_template query).between _ _
  | .many op first second rest => by
    intro draft
    have hfirst := (Clause.writes_template d table first).operand op first.kind draft
    have hsecond := (Clause.writes_template d table second).joined op second.kind
    have hrest := Clause.writes_joinedTemplate d table op rest
    simp only [Clause.render, hfirst, Outcome.map_bind, hsecond, hrest]
    simp only [Clause.template, Outcome.bind_map]
  | .not operand => (Clause.writes_template d table operand).negation operand.kind
  | .nonempty query => (SubQuery.writes_template query).between _ _

theorem Clause.writes_joinedTemplate (d : Dialect) (table : Option String) (op : Connective) :
    ∀ (cs : List Clause) (left : Template) (draft : Draft),
      Clause.renderRest d table op cs (draft.fill left) =
        (Clause.joinedTemplate d table op left cs).map draft.fill
  | [], _, _ => rfl
  | c :: rest, left, draft => by
    have hc := (Clause.writes_template d table c).joined op c.kind left draft
    have hrest := Clause.writes_joinedTemplate d table op rest
    simp only [Clause.renderRest, hc, Outcome.map_bind, hrest]
    simp only [Clause.joinedTemplate, Outcome.bind_map]

theorem SubQuery.writes_template : ∀ q : SubQuery, Writes q.render q.template
  | .select shape condition =>
    (shape.writes_template (Condition.writes_template shape.qualifier condition)).trimmed
  | .outside (.ok _) _ => fun _ => rfl
  | .outside (.error _) _ => fun _ => rfl

theorem Condition.writes_template (table : Option String) :
    ∀ c : Condition, Writes (Condition.render table c) (Condition.template table c)
  | .absent => fun draft => congrArg Except.ok draft.fill_empty.symm
  | .broken _ => fun _ => rfl
  | .holds dialect clause => (Clause.writes_template dialect table clause).afterText "WHERE "

end

end Relmap
