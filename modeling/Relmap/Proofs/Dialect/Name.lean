import Relmap.Proofs.Statement.Quoting
import Relmap.Proofs.Text.Quoted

/-!
# Names cannot leave their quotes

Whatever a name is made of, its text between quotes is the path of its parts, and only that path
(`Dialect.toList_quotedName`). So the parts of a name, and of a column after its table, are read
back from the text, two names never have the same text, and a reading that knows of no more than
quotes is outside of all of them after a name (`Dialect.names_keep_quotes`).
-/

namespace Relmap

open Text Text.Quoted

/-! ### Parts -/

theorem nameParts_ne_nil (name : String) : nameParts name ≠ [] := List.splitOn_ne_nil '.' _

/-- A name is made of its parts. -/
theorem nameParts_injective : Function.Injective nameParts := by
  intro a b h
  have hchars := congrArg (['.'].intercalate ·) h
  simp only [nameParts, List.intercalate_splitOn] at hchars
  exact String.toList_inj.mp hchars

namespace Dialect

variable {d : Dialect}

theorem nameQuote_ne_point (d : Dialect) : d.nameQuote ≠ '.' := by cases d <;> decide

/-! ### Texts of names -/

/-- A name is written as the path of its parts. -/
theorem toList_quotedName (d : Dialect) (name : String) :
    (d.quotedName name).toList = path d.nameQuote (nameParts name) := String.toList_ofList

/-- A column is written as one path, of the parts of its table and its own. -/
theorem toList_column (d : Dialect) (table : Option String) (column : String) :
    (d.column table column).toList =
      path d.nameQuote ((table.elim [] nameParts) ++ nameParts column) := by
  cases table with
  | none => exact d.toList_quotedName column
  | some table =>
    rw [Option.elim_some, path_append (nameParts_ne_nil table) (nameParts_ne_nil column),
      ← toList_quotedName, ← toList_quotedName]
    simp [Dialect.column]

/-- After a tidy text no quoted text is open. -/
theorem Tidy.foldl_quoteAfter {follow : Bool} {quote : Option Char} {s : List Char}
    (h : d.Tidy (α := Slot) follow quote (unmarked s)) : s.foldl quoteAfter quote = none := by
  induction s generalizing quote with
  | nil => exact h
  | cons c r ih => exact ih h.2

theorem Inert.foldl_quoteAfter {s : String} (h : d.Inert s) :
    s.toList.foldl quoteAfter none = none :=
  h.tidy.foldl_quoteAfter

/-- **A name cannot leave its quotes.** By the rule that a quoted text runs to the next quote that is
not doubled, the text of a name is read as the parts of the name, and no other text is. So different
names have different texts. A column after its table is read as the parts of the table and then its
own. And a reading that only looks for the three quote characters is outside of all quotes after a
name or a column. -/
theorem names_keep_quotes (d : Dialect) :
    (∀ name text, readPath? d.nameQuote text = some (nameParts name) ↔
      text = (d.quotedName name).toList) ∧
    (∀ name name', d.quotedName name = d.quotedName name' ↔ name = name') ∧
    (∀ table column, readPath? d.nameQuote (d.column table column).toList =
      some (table.elim [] nameParts ++ nameParts column)) ∧
    (∀ name, (d.quotedName name).toList.foldl quoteAfter none = none) ∧
    ∀ table column, (d.column table column).toList.foldl quoteAfter none = none := by
  have hread (name : String) (text : List Char) :
      readPath? d.nameQuote text = some (nameParts name) ↔ text = (d.quotedName name).toList := by
    rw [readPath?_eq_some_iff d.nameQuote_ne_point, toList_quotedName]
    exact and_iff_right (nameParts_ne_nil name)
  refine ⟨hread, fun name name' => ?_, fun table column => ?_, fun name => ?_,
    fun table column => ?_⟩
  · constructor
    · intro h
      have hname := (hread name _).mpr rfl
      rw [h, (hread name' _).mpr rfl] at hname
      exact nameParts_injective (Option.some.inj hname).symm
    · rintro rfl
      rfl
  · rw [toList_column]
    exact readPath?_path d.nameQuote_ne_point
      (List.append_ne_nil_of_right_ne_nil _ (nameParts_ne_nil column))
  · exact (solid_quotedName (d := d) name).inert.foldl_quoteAfter
  · exact (solid_column (d := d) table column).inert.foldl_quoteAfter

example : Dialect.sqlite.quotedName "main.we\"ird" = "\"main\".\"we\"\"ird\"" := by decide

end Dialect

end Relmap
