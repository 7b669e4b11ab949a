import Relmap.Proofs.Session
import Relmap.Statement.Where

/-!
# Writing in place

A condition is written into a draft that the caller holds, piece by piece. Where a piece fails, the
pieces before it have been written. Apart from that, writing in place gives what a condition renders
to, and fails where it fails (`Where.inPlace_append`).
-/

namespace Relmap

/-- A part of a statement that is written in place. -/
abbrev Writer := Session Draft Unit

namespace Writer

/-- Changes the draft. -/
def edit (f : Draft → Draft) : Writer := modify f

/-- Writes a text. -/
def text (s : String) : Writer := edit (·.write s)

/-- Writes a part without the blanks at its end. The part has a text of its own, but it shares the
arguments: those of a part that fails stay. -/
def trimmed (part : Writer) : Writer := do
  let draft ← get
  edit ({ · with text := "" })
  try part
  catch e =>
    edit ({ · with text := draft.text })
    throw e
  edit fun inner => { inner with text := draft.text ++ Text.trimTail inner.text }

/-- Writes an operand of a connective. -/
def operand (op : Connective) (kind : ClauseKind) (part : Writer) : Writer :=
  match kind with
  | .connective inner =>
    if inner = op then part
    else do
      text "("
      part.trimmed
      text ") "
  | _ => part

/-- Writes the negation of an operand. -/
def negation (kind : ClauseKind) (part : Writer) : Writer :=
  match kind with
  | .nonempty => do
    text "NOT "
    part
  | .connective _ => do
    text "(NOT ("
    part.trimmed
    text ")) "
  | .leaf | .not => do
    text "(NOT "
    part.trimmed
    text ") "

end Writer

/-- Writes a query in place, given how its condition is written. -/
def SelectShape.append (s : SelectShape) (condition : Writer) : Writer :=
  match s.fault with
  | some e => throw e
  | none => do
    Writer.text s.opening
    condition
    Writer.text s.grouping
    Writer.text (← Session.ofExcept (s.dialect.window s.limit s.offset))

mutual

/-- Writes a condition in place. -/
def Clause.append (d : Dialect) (table : Option String) : Clause → Writer
  | .leaf l => Writer.edit (l.render d table)
  | .inQuery column query negated => do
    Writer.text (d.column table column ++ if negated then " NOT IN (" else " IN (")
    SubQuery.append query
    Writer.text ") "
  | .many op first second rest => do
    Writer.operand op first.kind (Clause.append d table first)
    Writer.text op.separator
    Writer.operand op second.kind (Clause.append d table second)
    Clause.appendRest d table op rest
  | .not operand => Writer.negation operand.kind (Clause.append d table operand)
  | .nonempty query => do
    Writer.text "EXISTS ("
    SubQuery.append query
    Writer.text ") "

/-- Writes further operands of a connective in place. -/
def Clause.appendRest (d : Dialect) (table : Option String) (op : Connective) :
    List Clause → Writer
  | [] => pure ()
  | c :: rest => do
    Writer.text op.separator
    Writer.operand op c.kind (Clause.append d table c)
    Clause.appendRest d table op rest

/-- Writes a query inside a statement in place. -/
def SubQuery.append : SubQuery → Writer
  | .select shape condition => (shape.append (Condition.append shape.qualifier condition)).trimmed
  | .outside (.ok template) _ => Writer.edit (·.fill template)
  | .outside (.error e) _ => throw e

/-- Writes the condition of a query in place. -/
def Condition.append (table : Option String) : Condition → Writer
  | .absent => pure ()
  | .broken cause => throw cause
  | .holds dialect clause => do
    Writer.text "WHERE "
    Clause.append dialect table clause

end

/-- Writes the finished condition in place, without the word in front of it. -/
def Where.append (w : Where) (table : Option String) : Writer := do
  (← Session.ofExcept w.clause).append w.dialect table

/-! ### Agreement -/

/-- What writing in place gives: what a part renders to, or its failure and a draft with some of it
written. -/
inductive Writer.Gives : Except Failure Draft → Except Failure Unit × Draft → Prop
  | ok (out : Draft) : Gives (.ok out) (.ok (), out)
  | error (e : Failure) (left : Draft) : Gives (.error e) (.error e, left)

/-- Writing in place gives what a part renders to, whatever the draft. -/
def Writer.InPlace (w : Writer) (part : Draft → Except Failure Draft) : Prop :=
  ∀ draft, Gives (part draft) (w.run.run draft)

namespace Writer.InPlace

variable {w w' : Writer} {part part' : Draft → Except Failure Draft}

theorem edit (f : Draft → Draft) : InPlace (edit f) fun draft => .ok (f draft) := fun _ => .ok _

theorem text (s : String) : InPlace (text s) fun draft => .ok (draft.write s) := edit _

theorem nothing : InPlace (pure ()) .ok := fun _ => .ok _

theorem fail (e : Failure) : InPlace (throw e) fun _ => .error e := fun _ => .error e _

/-- One part after the other. -/
theorem bind (first : InPlace w part) (second : InPlace w' part') :
    InPlace (w >>= fun _ => w') fun draft => part draft >>= part' := by
  intro draft
  have given := first draft
  show Gives (part draft >>= part') _
  generalize part draft = rendered at given
  generalize ran : w.run.run draft = out at given
  cases given with
  | ok out =>
    rw [Session.run_bind_of_ok ran]
    exact second out
  | error e left =>
    rw [Session.run_bind_of_error ran]
    exact .error e left

theorem afterText (s : String) (h : InPlace w part) :
    InPlace (Writer.text s >>= fun _ => w) fun draft => part (draft.write s) :=
  (text s).bind h

theorem beforeText (h : InPlace w part) (s : String) :
    InPlace (w >>= fun _ => Writer.text s) fun draft => return (← part draft).write s :=
  h.bind (text s)

theorem trimmed (h : InPlace w part) : InPlace w.trimmed fun draft => draft.trimmed part := by
  intro draft
  have given := h { draft with text := "" }
  show Gives (part { draft with text := "" } >>= _) _
  have cleared : (Writer.edit ({ · with text := "" })).run.run draft =
      (.ok (), { draft with text := "" }) := rfl
  rw [Writer.trimmed, Session.run_get_bind, Session.run_bind_of_ok cleared]
  generalize part { draft with text := "" } = rendered at given ⊢
  generalize ran : w.run.run { draft with text := "" } = out at given
  cases given with
  | ok out =>
    rw [Session.run_bind_of_ok (Session.run_catch_of_ok ran)]
    exact .ok _
  | error e left =>
    have failed := Session.run_catch_of_error (g := fun e => do
      Writer.edit ({ · with text := draft.text })
      throw e) ran
    rw [Session.run_bind_of_error failed]
    exact .error e _

theorem operand (h : InPlace w part) (op : Connective) (kind : ClauseKind) :
    InPlace (w.operand op kind) fun draft => draft.operand op kind part := by
  unfold Writer.operand Draft.operand
  cases kind with
  | connective inner =>
    by_cases hop : inner = op
    · simpa only [hop, if_true] using h
    · simp only [hop, if_false]
      exact (h.trimmed.beforeText ") ").afterText "("
  | leaf => exact h
  | not => exact h
  | nonempty => exact h

theorem negation (h : InPlace w part) (kind : ClauseKind) :
    InPlace (w.negation kind) fun draft => draft.negation kind part := by
  cases kind with
  | nonempty => exact h.afterText "NOT "
  | connective inner => exact (h.trimmed.beforeText ")) ").afterText "(NOT ("
  | leaf => exact (h.trimmed.beforeText ") ").afterText "(NOT "
  | not => exact (h.trimmed.beforeText ") ").afterText "(NOT "

end Writer.InPlace

open Writer (InPlace)

theorem SelectShape.inPlace_append (s : SelectShape) {w : Writer}
    {condition : Draft → Except Failure Draft} (h : InPlace w condition) :
    InPlace (s.append w) (s.render condition) := by
  -- What comes after the condition is written in two pieces, and rendered as one.
  have rest : InPlace
      (do
        Writer.text s.grouping
        Writer.text (← Session.ofExcept (s.dialect.window s.limit s.offset)))
      fun draft => return draft.write (s.grouping ++ (← s.dialect.window s.limit s.offset)) := by
    intro draft
    cases s.dialect.window s.limit s.offset with
    | error e => exact .error e _
    | ok window =>
      have same : (draft.write s.grouping).write window = draft.write (s.grouping ++ window) := by
        simp only [Draft.write, String.append_assoc]
      show Writer.Gives (.ok (draft.write (s.grouping ++ window))) _
      rw [← same]
      exact .ok _
  unfold append render
  cases s.fault with
  | some e => exact .fail e
  | none => exact (h.bind rest).afterText s.opening

mutual

/-- **A condition written in place is the condition rendered.** -/
theorem Clause.inPlace_append (d : Dialect) (table : Option String) :
    ∀ c : Clause, InPlace (c.append d table) (c.render d table)
  | .leaf l => .edit (l.render d table)
  | .inQuery _ query _ =>
    ((SubQuery.inPlace_append query).beforeText ") ").afterText _
  | .many op first second rest =>
    ((Clause.inPlace_append d table first).operand op first.kind).bind
      ((((Clause.inPlace_append d table second).operand op second.kind).bind
        (Clause.inPlace_appendRest d table op rest)).afterText op.separator)
  | .not operand => (Clause.inPlace_append d table operand).negation operand.kind
  | .nonempty query => ((SubQuery.inPlace_append query).beforeText ") ").afterText "EXISTS ("

theorem Clause.inPlace_appendRest (d : Dialect) (table : Option String) (op : Connective) :
    ∀ cs : List Clause, InPlace (Clause.appendRest d table op cs) (Clause.renderRest d table op cs)
  | [] => .nothing
  | c :: rest =>
    (((Clause.inPlace_append d table c).operand op c.kind).bind
      (Clause.inPlace_appendRest d table op rest)).afterText op.separator

theorem SubQuery.inPlace_append : ∀ q : SubQuery, InPlace q.append q.render
  | .select shape condition =>
    (shape.inPlace_append (Condition.inPlace_append shape.qualifier condition)).trimmed
  | .outside (.ok template) _ => .edit (·.fill template)
  | .outside (.error e) _ => .fail e

theorem Condition.inPlace_append (table : Option String) :
    ∀ c : Condition, InPlace (Condition.append table c) (Condition.render table c)
  | .absent => .nothing
  | .broken cause => .fail cause
  | .holds dialect clause => (Clause.inPlace_append dialect table clause).afterText "WHERE "

end

/-- **A finished condition written in place is the condition rendered.** -/
theorem Where.inPlace_append (w : Where) (table : Option String) :
    InPlace (w.append table) (w.render table) := by
  intro draft
  unfold append render
  cases w.clause with
  | error e => exact .error e draft
  | ok c => exact c.inPlace_append w.dialect table draft

end Relmap
