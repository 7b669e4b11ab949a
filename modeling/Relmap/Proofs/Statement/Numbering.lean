import Relmap.Proofs.Statement.Demand
import Relmap.Statement.Select

/-!
# The numbers of placeholders

The slots of a template are in order if the first is the one of the first argument, the second of
the second and so on. The template of a condition has its slots in order if every piece of SQL in it
has as many placeholders as arguments (`Clause.inOrder_template`).

`render_eq_template` puts this beside what `Placement` says: conditions and queries are written as
their templates, a query that stands by itself is the template of the query inside a statement with
nothing before it.
-/

namespace Relmap

open Text
open Template (ofText ofArgument ofMoreArguments)

/-! ### Order -/

namespace Template

/-- The slots are all of one dialect, one to an argument and in the order of the arguments. -/
def InOrder (d : Dialect) (t : Template) : Prop :=
  t.slots = (List.range t.args.length).map fun i => ⟨d, i + 1⟩

theorem inOrder_ofText (d : Dialect) (s : String) : (ofText s).InOrder d := marks_unmarked _

theorem inOrder_ofArgument (d : Dialect) (a : Argument) : (ofArgument d a).InOrder d := rfl

theorem InOrder.append {d : Dialect} {t u : Template} (ht : t.InOrder d) (hu : u.InOrder d) :
    (t ++ u).InOrder d := by
  have hsum : (t ++ u).slots = t.slots ++ u.slots.map (Slot.shift t.args.length) := by
    rw [slots, slots, slots, signs_append, marks_append, marks_map]
  rw [InOrder, hsum, ht, hu, args_append, List.length_append, List.range_add, List.map_append,
    List.map_map, List.map_map]
  simp [Slot.shift, Function.comp_def, Nat.add_assoc]

theorem InOrder.trimmed {d : Dialect} {t : Template} (h : t.InOrder d) : t.trimmed.InOrder d := by
  rw [InOrder, slots, Template.trimmed, marks_trimMarked]
  exact h

theorem InOrder.between {d : Dialect} {t : Template} (h : t.InOrder d) (s e : String) :
    (ofText s ++ t ++ ofText e).InOrder d :=
  ((inOrder_ofText d s).append h).append (inOrder_ofText d e)

theorem inOrder_ofMoreArguments (d : Dialect) (args : List Argument) :
    (ofMoreArguments d args).InOrder d := by
  induction args with
  | nil => exact inOrder_ofText d _
  | cons a rest ih => exact ((inOrder_ofText d _).append (inOrder_ofArgument d a)).append ih

end Template

/-! ### Tests -/

/-- How many placeholders a piece of SQL has outside of quotes. -/
def placeholderCount (quote : Option Char) : List Char → Nat
  | [] => 0
  | c :: r =>
    if quote = none ∧ c = '?' then placeholderCount none r + 1
    else placeholderCount (quoteAfter quote c) r

/-- A test whose placeholders are as many as its arguments. Only a piece of SQL can be another. -/
def Leaf.Aligned : Leaf → Prop
  | .raw sql args => placeholderCount none sql.toList = args.length
  | _ => True

theorem Dialect.marks_rawSigns (d : Dialect) (count : Nat) (quote : Option Char) (sql : List Char) :
    marks (d.rawSigns count quote sql) =
      (List.range (placeholderCount quote sql)).map fun i => ⟨d, count + i + 1⟩ := by
  induction sql generalizing count quote with
  | nil => rfl
  | cons c r ih =>
    rw [rawSigns, placeholderCount]
    split
    · rw [marks_mark, ih, List.range_succ_eq_map, List.map_cons, List.map_map]
      simp [Function.comp_def, Nat.add_assoc, Nat.add_comm 1]
    · rw [marks_char, ih]

theorem Rhs.inOrder_template (d : Dialect) (table : Option String) (r : Rhs) :
    (r.template d table).InOrder d := by
  cases r with
  | argument a => exact Template.inOrder_ofArgument d a
  | column c => exact Template.inOrder_ofText d _

theorem Leaf.inOrder_template (d : Dialect) (table : Option String) {l : Leaf} (h : l.Aligned) :
    (l.template d table).InOrder d := by
  have htext := Template.inOrder_ofText d
  have harg := Template.inOrder_ofArgument d
  cases l with
  | compare column operator rhs => exact (rhs.inOrder_template d table).between _ _
  | between column low high =>
    exact ((((htext _).append (harg low)).append (htext _)).append (harg high)).append (htext _)
  | inList column first rest negated =>
    exact (((htext _).append (harg first)).append (Template.inOrder_ofMoreArguments d rest)).append
      (htext _)
  | null column negated => exact htext _
  | raw sql args =>
    have hcount : placeholderCount none sql.toList = args.length := h
    rw [Template.InOrder, Template.slots, template, marks_append, marks_unmarked, List.append_nil,
      d.marks_rawSigns, hcount]
    simp

/-! ### Conditions and queries -/

/-- Every piece of SQL has as many placeholders as arguments, every condition is of one dialect, and
what is made elsewhere has its slots in order. -/
def Demand.aligned (d : Dialect) : Demand where
  dialect := d
  leaf := Leaf.Aligned
  shape := fun _ => True
  outside := Template.InOrder d

theorem Demand.aligned_ensures (d : Dialect) : (Demand.aligned d).Ensures (Template.InOrder d) where
  empty := Template.inOrder_ofText d _
  leaf table _ h := Leaf.inOrder_template d table h
  outside _ h := h
  query _ _ _ _ _ h := h.between _ _
  trimmed _ h := h.trimmed
  enclosed _ _ _ _ h := h.between _ _
  joined _ _ _ ht hu := ht.append ((Template.inOrder_ofText d _).append hu)
  afterNot _ h := (Template.inOrder_ofText d _).append h
  afterWhere _ h := (Template.inOrder_ofText d _).append h

theorem Clause.inOrder_template {d : Dialect} {c : Clause} (h : c.Meets (.aligned d))
    {table : Option String} {t : Template} (ht : c.template d table = .ok t) : t.InOrder d :=
  (Demand.aligned_ensures d).clause table c h t ht

/-! ### Queries by themselves -/

/-- A statement by itself: its template with nothing before it, and without the blanks at its
end. -/
theorem Prepared.ofDraft_of_template {draft : Except Failure Draft} {out : Except Failure Template}
    (h : draft = out.map (Draft.fill {})) (kind : StatementKind) (d : Dialect) (table : Table) :
    (do return Prepared.ofDraft (← draft) kind d table) =
      (out.map Template.trimmed).map fun t =>
        { sql := String.ofList (t.text 0), kind, args := t.args, dialect := d, table } := by
  subst h
  rw [Outcome.map_bind, Outcome.map_map]
  cases out with
  | error e => rfl
  | ok t =>
    refine congrArg Except.ok ?_
    simp [Prepared.ofDraft, Draft.fill, trimTail, Template.text_trimmed]

/-- A query by itself is the query inside a statement with nothing before it. -/
theorem Select.prepare_eq_template (s : Select) :
    s.prepare = s.subQuery.template.map fun t =>
      { sql := String.ofList (t.text 0), kind := s.kind, args := t.args, dialect := s.shape.dialect,
        table := s.shape.table } :=
  Prepared.ofDraft_of_template
    (s.shape.writes_template (Condition.writes_template s.shape.qualifier _) {}) _ _ _

/-- **Where a condition or a query stands changes nothing but the numbers of its placeholders.**
What it writes, or why it fails, is fixed by itself: a text with slots for the placeholders and a
list of arguments, which come after the text and the arguments of the draft. Placeholders are
numbered on from the arguments of the draft, and if every piece of SQL has as many placeholders as
arguments, the placeholders belong to the arguments one by one. -/
theorem render_eq_template (c : Clause) (d : Dialect) (table : Option String) (s : Select) :
    (∀ draft, c.render d table draft = (c.template d table).map fun t =>
      { text := draft.text ++ String.ofList (t.text draft.args.length),
        args := draft.args ++ t.args }) ∧
    (c.Meets (.aligned d) → ∀ t, c.template d table = .ok t →
      t.slots = (List.range t.args.length).map fun i => ⟨d, i + 1⟩) ∧
    (∀ draft, s.subQuery.render draft = s.subQuery.template.map fun t =>
      { text := draft.text ++ String.ofList (t.text draft.args.length),
        args := draft.args ++ t.args }) ∧
    s.prepare = s.subQuery.template.map fun t =>
      { sql := String.ofList (t.text 0), kind := s.kind, args := t.args, dialect := s.shape.dialect,
        table := s.shape.table } :=
  ⟨c.writes_template d table, fun h _ ht => c.inOrder_template h ht, s.subQuery.writes_template,
    s.prepare_eq_template⟩

/-- Two placeholders in a piece of SQL, and two after it. -/
theorem slots_after_raw :
    ∃ t, Clause.template .postgresql none
        (.many .or (.leaf (.raw "x = ? + ?" [.raw .null, .raw .null]))
          (.leaf (.between "y" (.raw .null) (.raw .null))) []) = .ok t ∧
      t.slots = [⟨.postgresql, 1⟩, ⟨.postgresql, 2⟩, ⟨.postgresql, 3⟩, ⟨.postgresql, 4⟩] := by
  have h := (render_eq_template (.many .or (.leaf (.raw "x = ? + ?" [.raw .null, .raw .null]))
      (.leaf (.between "y" (.raw .null) (.raw .null))) [])
    .postgresql none (.new .postgresql ⟨"t", [], rfl⟩)).2.1
  exact ⟨_, rfl, h ⟨rfl, trivial, trivial⟩ _ rfl⟩

end Relmap
