import Relmap.Proofs.Statement.Numbering
import Relmap.Proofs.Statement.Quoting

/-!
# Conditions and queries read again

A template is legible if a reading of its text meets a placeholder exactly where a slot is, and its
slots are in order (`Template.Legible`). The template of a condition is legible if no free text in
it has a placeholder of its own or leaves a quoted text open, but for the pieces of SQL, whose
placeholders are the ones of their arguments (`Demand.legible_ensures`).
-/

namespace Relmap

open Text
open Template (ofText ofArgument ofMoreArguments)

variable {d : Dialect}

/-! ### Templates -/

/-- A reading meets a placeholder exactly where a slot is, and the slots are in the order of the
arguments. -/
structure Template.Legible (d : Dialect) (t : Template) : Prop where
  tidy : d.Tidy false none t.signs
  inOrder : t.InOrder d

namespace Template

variable {t u : Template} {s : String}

theorem Legible.append (ht : t.Legible d) (hu : u.Legible d)
    (hnext : digitNext false u.signs = false) : (t ++ u).Legible d := by
  refine ⟨?_, ht.inOrder.append hu.inOrder⟩
  refine Dialect.Tidy.append ?_ ((Dialect.Tidy.map_iff _).mpr hu.tidy)
  rw [digitNext_map, hnext]
  exact ht.tidy

theorem legible_ofText (h : d.Inert s) : (ofText s).Legible d := ⟨h.tidy, inOrder_ofText d s⟩

theorem legible_ofArgument (d : Dialect) (a : Argument) : (ofArgument d a).Legible d :=
  ⟨⟨rfl, fun _ => rfl, rfl⟩, inOrder_ofArgument d a⟩

/-- After some texts anything may come. -/
theorem Legible.afterText (hu : u.Legible d) (hs : d.Solid s) : (ofText s ++ u).Legible d :=
  ⟨(hs.tidy.mono _).append ((Dialect.Tidy.map_iff _).mpr hu.tidy),
    (inOrder_ofText d s).append hu.inOrder⟩

theorem Legible.beforeText (ht : t.Legible d) (hs : d.Inert s) (hnext : NoDigitFirst false s) :
    (t ++ ofText s).Legible d :=
  ht.append (legible_ofText hs) hnext

theorem Legible.trimmed (ht : t.Legible d) : t.trimmed.Legible d :=
  ⟨ht.tidy.trimMarked, ht.inOrder.trimmed⟩

theorem legible_ofMoreArguments (args : List Argument) :
    (ofMoreArguments d args).Legible d ∧
      digitNext false (ofMoreArguments d args).signs = false := by
  induction args with
  | nil => exact ⟨legible_ofText ⟨rfl⟩, rfl⟩
  | cons a rest ih =>
    have hcomma : d.Solid "," := Dialect.solid_of_plain (by decide)
    exact ⟨((legible_ofArgument d a).afterText hcomma).append ih.1 ih.2, rfl⟩

end Template

/-! ### Tests -/

/-- A test whose free text, if it has any, has no placeholders but the ones of its arguments. -/
def Leaf.Fits (d : Dialect) : Leaf → Prop
  | .compare _ operator _ => d.Inert operator
  | .raw sql args =>
    d.Tidy false none (d.rawSigns 0 none sql.toList) ∧
      placeholderCount none sql.toList = args.length
  | _ => True

theorem Rhs.legible_template (table : Option String) (r : Rhs) :
    (r.template d table).Legible d := by
  cases r with
  | argument a => exact Template.legible_ofArgument d a
  | column c =>
    have hcolumn : d.Solid (d.column (c.table <|> table) c.column) := Dialect.solid_column _ _
    exact Template.legible_ofText hcolumn.inert

theorem Leaf.legible_template (table : Option String) {l : Leaf} (h : l.Fits d) :
    (l.template d table).Legible d := by
  have hcolumn : ∀ column, d.Solid (d.column table column) :=
    fun column => Dialect.solid_column table column
  have hblank : d.Solid " " := Dialect.solid_of_plain (by decide)
  cases l with
  | compare column operator rhs =>
    have hoperator : d.Inert operator := h
    have hleft : d.Solid (d.column table column ++ " " ++ operator ++ " ") :=
      (((hcolumn column).append hblank).append_inert hoperator).append_solid hblank rfl
    exact ((rhs.legible_template table).afterText hleft).beforeText hblank.inert rfl
  | between column low high =>
    have hbetween : d.Solid " BETWEEN " := Dialect.solid_of_plain (by decide)
    have hand : d.Solid " AND " := Dialect.solid_of_plain (by decide)
    have hlow := (Template.legible_ofArgument d low).afterText ((hcolumn column).append hbetween)
    have hhigh := (hlow.beforeText hand.inert rfl).append (Template.legible_ofArgument d high) rfl
    exact hhigh.beforeText hblank.inert rfl
  | inList column first rest negated =>
    have hin : d.Solid (if negated then " NOT IN (" else " IN (") := by
      cases negated <;> exact Dialect.solid_of_plain (by decide)
    have hclose : d.Solid ") " := Dialect.solid_of_plain (by decide)
    have hfirst := (Template.legible_ofArgument d first).afterText ((hcolumn column).append hin)
    have hrest := Template.legible_ofMoreArguments (d := d) rest
    exact (hfirst.append hrest.1 hrest.2).beforeText hclose.inert rfl
  | null column negated =>
    have hnull : d.Solid (if negated then " IS NOT NULL " else " IS NULL ") := by
      cases negated <;> exact Dialect.solid_of_plain (by decide)
    exact Template.legible_ofText ((hcolumn column).append hnull).inert
  | raw sql args =>
    refine ⟨?_, Leaf.inOrder_template d table h.2⟩
    exact Dialect.Tidy.append h.1 (Dialect.tidy_of_plain (by decide) false)

/-! ### Queries -/

/-- A query of a dialect whose free texts have no placeholders of their own. -/
structure SelectShape.Fits (d : Dialect) (s : SelectShape) : Prop where
  dialect : s.dialect = d
  count : ∀ e, s.count = some e → d.Inert e
  having : ∀ e, s.having = some e → d.Inert e
  orderBy : ∀ e, .expression e ∈ s.orderBy → d.Inert e

namespace SelectShape

variable {s : SelectShape}

theorem inert_columnList (hs : s.dialect = d) (columns : List String) :
    d.Inert (s.columnList columns) := by
  subst hs
  refine Dialect.inert_intercalate fun c hc => ?_
  obtain ⟨column, -, rfl⟩ := List.mem_map.mp hc
  exact (Dialect.solid_column _ _).inert

theorem Fits.solid_selection (h : s.Fits d) : d.Solid s.selection := by
  have hdistinct : d.Solid (if s.distinct then "DISTINCT " else "") := by
    cases s.distinct <;> exact Dialect.solid_of_plain (by decide)
  unfold selection
  cases hcount : s.count with
  | some e =>
    have hopen : d.Solid "COUNT(" := Dialect.solid_of_plain (by decide)
    have hclose : d.Solid ") " := Dialect.solid_of_plain (by decide)
    exact ((hopen.append hdistinct).append_inert (h.count e hcount)).append_solid hclose rfl
  | none =>
    have hblank : d.Solid " " := Dialect.solid_of_plain (by decide)
    have hcolumns : d.Inert (if s.columns.isEmpty then "*" else s.columnList s.columns) := by
      split
      · exact (Dialect.solid_of_plain (by decide)).inert
      · exact inert_columnList h.dialect _
    exact (hdistinct.append_inert hcolumns).append_solid hblank rfl

theorem Fits.solid_opening (h : s.Fits d) : d.Solid s.opening := by
  have hselect : d.Solid "SELECT " := Dialect.solid_of_plain (by decide)
  have hfrom : d.Solid "FROM " := Dialect.solid_of_plain (by decide)
  have hblank : d.Solid " " := Dialect.solid_of_plain (by decide)
  have hname : d.Solid (s.dialect.quotedName s.table.name) := by
    rw [h.dialect]
    exact Dialect.solid_quotedName _
  exact (((hselect.append h.solid_selection).append hfrom).append hname).append hblank

theorem Fits.inert_sortKeys (h : s.Fits d) :
    d.Inert (", ".intercalate (s.orderBy.map s.sortKey)) := by
  refine Dialect.inert_intercalate fun k hk => ?_
  obtain ⟨key, hkey, rfl⟩ := List.mem_map.mp hk
  cases key with
  | expression sql => exact h.orderBy sql hkey
  | column name ascending =>
    have hcolumn : d.Solid (s.dialect.column s.qualifier name) := by
      rw [h.dialect]
      exact Dialect.solid_column _ _
    have hdesc : d.Solid (if ascending then "" else " DESC") := by
      cases ascending <;> exact Dialect.solid_of_plain (by decide)
    exact (hcolumn.append hdesc).inert

/-- A text between a word and a blank, or nothing. -/
theorem solid_part {b : Prop} [Decidable b] {word text : String} (hword : d.Solid word)
    (hfirst : NoDigitFirst true word) (htext : ¬b → d.Inert text) :
    d.Solid (if b then "" else word ++ text ++ " ") ∧
      NoDigitFirst false (if b then "" else word ++ text ++ " ") := by
  have hblank : d.Solid " " := Dialect.solid_of_plain (by decide)
  split
  · exact ⟨⟨rfl⟩, rfl⟩
  · rename_i hb
    refine ⟨(hword.append_inert (htext hb)).append_solid hblank rfl, ?_⟩
    rw [String.append_assoc]
    exact hfirst.append_left false _

theorem Fits.solid_grouping (h : s.Fits d) :
    d.Solid s.grouping ∧ NoDigitFirst false s.grouping := by
  have hgroup : d.Solid "GROUP BY " := Dialect.solid_of_plain (by decide)
  have hhaving : d.Solid "HAVING " := Dialect.solid_of_plain (by decide)
  have horder : d.Solid "ORDER BY " := Dialect.solid_of_plain (by decide)
  have hgroups :=
    solid_part (b := s.groupBy.isEmpty) hgroup rfl fun _ => inert_columnList h.dialect s.groupBy
  have horders := solid_part (b := s.orderBy.isEmpty) horder rfl fun _ => h.inert_sortKeys
  unfold grouping
  cases he : s.having with
  | none =>
    have hnothing : d.Solid "" ∧ NoDigitFirst false "" := ⟨⟨rfl⟩, rfl⟩
    exact ⟨(hgroups.1.append hnothing.1).append horders.1,
      (hgroups.2.append hnothing.2).append horders.2⟩
  | some e =>
    have hcondition := solid_part (b := False) hhaving rfl fun _ => h.having e he
    exact ⟨(hgroups.1.append hcondition.1).append horders.1,
      (hgroups.2.append hcondition.2).append horders.2⟩

end SelectShape

/-! ### Conditions -/

/-- No free text has a placeholder of its own, every condition and query is of one dialect, and what
is made elsewhere is legible. -/
def Demand.legible (d : Dialect) : Demand where
  dialect := d
  leaf := Leaf.Fits d
  shape := SelectShape.Fits d
  outside := Template.Legible d

theorem Bracket.solid {s e : String} (h : Bracket d s e) :
    d.Solid s ∧ d.Solid e ∧ NoDigitFirst false e := by
  have hplain : ∀ text : String, text.toList.all Dialect.isPlain = true → d.Solid text :=
    fun _ => Dialect.solid_of_plain
  cases h with
  | operand => exact ⟨hplain _ (by decide), hplain _ (by decide), rfl⟩
  | negation => exact ⟨hplain _ (by decide), hplain _ (by decide), rfl⟩
  | negatedConnective => exact ⟨hplain _ (by decide), hplain _ (by decide), rfl⟩
  | nonempty => exact ⟨hplain _ (by decide), hplain _ (by decide), rfl⟩
  | member table column negated =>
    refine ⟨(Dialect.solid_column table column).append ?_, hplain _ (by decide), rfl⟩
    cases negated <;> exact hplain _ (by decide)

theorem Connective.solid_separator (op : Connective) :
    d.Solid op.separator ∧ NoDigitFirst false op.separator := by
  cases op <;> exact ⟨Dialect.solid_of_plain (by decide), rfl⟩

theorem Demand.legible_ensures (d : Dialect) : (Demand.legible d).Ensures (Template.Legible d) where
  empty := Template.legible_ofText ⟨rfl⟩
  leaf table _ h := Leaf.legible_template table h
  outside _ h := h
  query s window t hs hw ht := by
    have hwindow := Dialect.solid_window (hs.dialect ▸ hw)
    have hgrouping := hs.solid_grouping
    exact (ht.afterText hs.solid_opening).beforeText (hgrouping.1.append hwindow.1).inert
      (hgrouping.2.append hwindow.2)
  trimmed _ h := h.trimmed
  enclosed _ _ _ hbracket ht :=
    (ht.afterText hbracket.solid.1).beforeText hbracket.solid.2.1.inert hbracket.solid.2.2
  joined op t u ht hu := ht.append (hu.afterText op.solid_separator.1) (by cases op <;> rfl)
  afterNot _ h := h.afterText (Dialect.solid_of_plain (by decide))
  afterWhere _ h := h.afterText (Dialect.solid_of_plain (by decide))

end Relmap
