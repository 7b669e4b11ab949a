import Relmap.Proofs.Outcome
import Relmap.Proofs.Text.Marked
import Relmap.Proofs.Text.Quoted
import Relmap.Statement.Prepared
import Relmap.Statement.Render

/-!
# Question marks outside of quoted texts

A piece of SQL that the caller gives is read twice. Written under a dialect that numbers its
placeholders, its question marks become placeholders with numbers; in a text for logs, under a
dialect that does not, they become the literals of the arguments. Both readings go from character to
character and only keep in mind which quote is open.

By the rule of SQL a quoted text runs from a quote character to the next same one that is not
doubled, or to the end if there is none. A question mark is a placeholder if it stands outside of
all quoted texts (`Outside`). A reading that looks at one character at a time takes a doubled quote
for the end of a quoted text and the start of another one, so in the middle of it the reading is
outside where the rule is inside. They agree again one character later, and that character is no
question mark (`questionMarks_double`). So both readings find the same placeholders as the rule, in
every text, whether its quotes are balanced or not: `placeholders_outside_quotes`.
-/

namespace Relmap

open Text
open Text.Quoted (double wrap exists_double_of_finish? finish? finish?_eq_some)

/-! ### The rule -/

/-- The text with a mark in the place of every question mark outside of its quoted texts. -/
inductive Outside : List Char → List (Sign Unit) → Prop
  | nil : Outside [] []
  /-- A quoted text ends with a quote that no other one follows. -/
  | closed {q : Char} (quote : isQuote q = true) (inside : List Char) {rest : List Char}
    {m : List (Sign Unit)} (last : rest.head? ≠ some q) (h : Outside rest m) :
    Outside (wrap q inside ++ rest) (unmarked (wrap q inside) ++ m)
  /-- A quoted text that nothing ends. -/
  | unclosed {q : Char} (quote : isQuote q = true) (inside : List Char) :
    Outside (q :: double q inside) (unmarked (q :: double q inside))
  | placeholder {rest : List Char} {m : List (Sign Unit)} (h : Outside rest m) :
    Outside ('?' :: rest) (.mark () :: m)
  | other {c : Char} (noQuote : isQuote c = false) (plain : c ≠ '?') {rest : List Char}
    {m : List (Sign Unit)} (h : Outside rest m) : Outside (c :: rest) (.char c :: m)

variable {q : Char} {s t rest : List Char} {m : List (Sign Unit)}

/-- Every text is read by the rule. -/
theorem exists_outside (s : List Char) : ∃ m, Outside s m := by
  match s with
  | [] => exact ⟨[], .nil⟩
  | c :: r =>
    by_cases quote : isQuote c = true
    · cases read : finish? c r with
      | none =>
        obtain ⟨inside, rfl⟩ := exists_double_of_finish? read
        exact ⟨_, .unclosed quote inside⟩
      | some found =>
        obtain ⟨inside, rest⟩ := found
        obtain ⟨text, last⟩ := finish?_eq_some read
        have shorter : rest.length < (c :: r).length := by
          simp [text]
          omega
        obtain ⟨m, h⟩ := exists_outside rest
        have whole : c :: r = wrap c inside ++ rest := by simp [text, wrap]
        rw [whole]
        exact ⟨_, .closed quote inside last h⟩
    · obtain ⟨m, h⟩ := exists_outside r
      by_cases mark : c = '?'
      · subst mark
        exact ⟨_, .placeholder h⟩
      · exact ⟨_, .other (Bool.eq_false_iff.mpr quote) mark h⟩
  termination_by s.length

/-- Marks stand for question marks, and all else is as it was. -/
theorem Outside.expand_eq (h : Outside s m) : expand (fun _ => ['?']) m = s := by
  induction h with
  | nil => rfl
  | closed _ _ _ _ ih => rw [expand_append, expand_unmarked, ih]
  | unclosed => exact expand_unmarked _ _
  | placeholder _ ih => rw [expand_mark, ih]; rfl
  | other _ _ _ ih => rw [expand_char, ih]

/-! ### One character at a time -/

/-- The text with a mark in the place of every question mark that is met outside of quotes, by a
reading that only knows which quote is open. -/
def questionMarks (quote : Option Char) : List Char → List (Sign Unit)
  | [] => []
  | c :: r =>
    if quote = none ∧ c = '?' then .mark () :: questionMarks none r
    else .char c :: questionMarks (quoteAfter quote c) r

theorem ne_questionMark_of_isQuote (quote : isQuote q = true) : q ≠ '?' := by
  rintro rfl
  exact absurd quote (by decide)

theorem questionMarks_open (quote : isQuote q = true) (r : List Char) :
    questionMarks none (q :: r) = .char q :: questionMarks (some q) r := by
  rw [questionMarks, if_neg (by simp [ne_questionMark_of_isQuote quote]), quoteAfter, if_pos quote]

theorem questionMarks_close (q : Char) (r : List Char) :
    questionMarks (some q) (q :: r) = .char q :: questionMarks none r := by
  rw [questionMarks, if_neg (by simp), quoteAfter, if_pos rfl]

theorem questionMarks_inside {c : Char} (other : c ≠ q) (r : List Char) :
    questionMarks (some q) (c :: r) = .char c :: questionMarks (some q) r := by
  rw [questionMarks, if_neg (by simp), quoteAfter, if_neg other]

/-- **No question mark is met inside of a quoted text**, and behind it the quote is open still. -/
theorem questionMarks_double (quote : isQuote q = true) (inside rest : List Char) :
    questionMarks (some q) (double q inside ++ rest) =
      unmarked (double q inside) ++ questionMarks (some q) rest := by
  induction inside with
  | nil => rfl
  | cons c inside ih =>
    by_cases h : c = q
    · -- The first of two quotes closes the quoted text and the second one opens it again.
      rw [double, if_pos h, List.cons_append, List.cons_append, questionMarks_close,
        questionMarks_open quote, ih]
      rfl
    · rw [double, if_neg h, List.cons_append, questionMarks_inside h, ih]
      rfl

/-- **A reading that only knows which quote is open follows the rule.** -/
theorem Outside.questionMarks_eq (h : Outside s m) : questionMarks none s = m := by
  induction h with
  | nil => rfl
  | @closed q quote inside rest _ _ _ ih =>
    have text : wrap q inside ++ rest = q :: (double q inside ++ q :: rest) := by simp [wrap]
    rw [text, questionMarks_open quote, questionMarks_double quote, questionMarks_close, ih]
    simp [wrap, unmarked]
  | @unclosed q quote inside =>
    have inner := questionMarks_double quote inside []
    rw [List.append_nil] at inner
    rw [questionMarks_open quote, inner]
    simp [questionMarks, unmarked]
  | placeholder _ ih => rw [questionMarks, if_pos ⟨rfl, rfl⟩, ih]
  | other noQuote plain _ ih =>
    rw [questionMarks, if_neg (by simp [plain]), quoteAfter, if_neg (by simp [noQuote]), ih]

theorem outside_questionMarks (s : List Char) : Outside s (questionMarks none s) := by
  obtain ⟨m, h⟩ := exists_outside s
  rwa [h.questionMarks_eq]

/-! ### The two readings -/

/-- Placeholders are numbered one by one. -/
theorem Dialect.renumber_eq_replaceMarks (d : Dialect) (count : Nat) (quote : Option Char)
    (s : List Char) :
    d.renumber count quote s = replaceMarks (questionMarks quote s)
      ((List.range' (count + 1) (marks (questionMarks quote s)).length).map
        fun number => (d.placeholder number).toList) := by
  induction s generalizing count quote with
  | nil => rfl
  | cons c r ih =>
    rw [renumber, questionMarks]
    split
    · rw [ih, marks_mark, List.length_cons, List.range'_succ, List.map_cons, replaceMarks]
    · rw [ih, marks_char, replaceMarks]

/-- Placeholders without numbers take the literals of the arguments one by one. -/
theorem Prepared.inlineFrom_eq_replaceMarks {d : Dialect} (positional : d.isNumbered = false)
    (args : List Argument) (quote : Option Char) (next : Nat) (s : List Char) :
    inlineFrom d args quote next s =
      ((List.range' next (marks (questionMarks quote s)).length).mapM (literal args)).map
        (replaceMarks (questionMarks quote s)) := by
  induction s generalizing quote next with
  | nil =>
    rw [inlineFrom]
    rfl
  | cons c r ih =>
    rw [inlineFrom, questionMarks]
    by_cases h : quote = none ∧ c = '?'
    · rw [if_pos ⟨h.1, h.2, by simp [positional]⟩, if_pos h, ih, marks_mark, List.length_cons,
        List.range'_succ, List.mapM_cons]
      cases literal args next with
      | error e => rfl
      | ok value =>
        cases (List.range' (next + 1) (marks (questionMarks none r)).length).mapM (literal args) <;>
          rfl
    · rw [if_neg (fun found => h ⟨found.1, found.2.1⟩), if_neg h]
      simp only [positional, Bool.false_eq_true, false_and, and_false, if_false]
      rw [ih, marks_char]
      cases (List.range' next (marks (questionMarks (quoteAfter quote c) r)).length).mapM
        (literal args) <;> rfl

/-- **Both readings find the question marks outside of quoted texts.** Every piece of SQL, its
quotes balanced or not, is read by the rule in one way. That leaves all characters as they are and
marks some of the question marks. Written after so many arguments, the piece has the placeholder with the
next number for each mark in turn; under a dialect without numbers that is a question mark again.
In a text for logs under such a dialect each mark in turn gets the literal of the next argument, and
where an argument is missing or not set there is no text. All other characters stay, in order. -/
theorem placeholders_outside_quotes (sql : String) :
    ∃ m, Outside sql.toList m ∧ (∀ m', Outside sql.toList m' → m' = m) ∧
      expand (fun _ => ['?']) m = sql.toList ∧
      (∀ (d : Dialect) (table : Option String) (args : List Argument) (draft : Draft),
        (Leaf.raw sql args).render d table draft =
          { text := draft.text ++ String.ofList (replaceMarks m
              ((List.range' (draft.args.length + 1) (marks m).length).map
                fun number => (d.placeholder number).toList)) ++ " "
            args := draft.args ++ args }) ∧
      ∀ p : Prepared, p.sql = sql → p.dialect.isNumbered = false →
        p.inlineSql = ((List.range (marks m).length).mapM (Prepared.literal p.args)).map
          fun literals => String.ofList (replaceMarks m literals) := by
  have rule := outside_questionMarks sql.toList
  refine ⟨questionMarks none sql.toList, rule, ?_, rule.expand_eq, ?_, ?_⟩
  · intro m' h
    exact h.questionMarks_eq.symm
  · intro d table args draft
    rw [Leaf.render, d.renumber_eq_replaceMarks]
  · rintro p rfl positional
    rw [Prepared.inlineSql, Prepared.inlineFrom_eq_replaceMarks positional, List.range_eq_range']
    exact Outcome.map_map _ _ _

/-- A doubled quote does not end a quoted text, nor does a quote of another kind, and one that is
left open runs to the end: of six question marks two are placeholders. -/
theorem two_of_six_outside :
    ∃ p : Prepared, p.sql = "'it''s ?' < ? AND \"'?\" = ? OR \x60?''?" ∧ p.dialect = .h2 ∧
      p.dialect.isNumbered = false ∧ p.args = [.raw (.int 3), .raw (.text "?")] ∧
      ((Leaf.raw p.sql p.args).render .postgresql none { args := [.raw .null] }).text =
        "'it''s ?' < $2 AND \"'?\" = $3 OR \x60?''? " ∧
      p.inlineSql = .ok "'it''s ?' < 3 AND \"'?\" = '?' OR \x60?''?" := by
  obtain ⟨m, -, unique, -, written, inlined⟩ :=
    placeholders_outside_quotes "'it''s ?' < ? AND \"'?\" = ? OR \x60?''?"
  obtain rfl := unique _ (outside_questionMarks _)
  refine ⟨⟨_, .delete, [.raw (.int 3), .raw (.text "?")], .h2, ⟨"t", [], rfl⟩⟩, rfl, rfl, rfl, rfl,
    ?_, ?_⟩
  · rw [written]
    decide +kernel
  · rw [inlined _ rfl rfl]
    rfl

end Relmap
