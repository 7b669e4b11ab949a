import Mathlib.Data.List.GetD
import Relmap.Proofs.Statement.Arguments
import Relmap.Proofs.Statement.Precedence

/-!
# What the text of a condition says

The text of a condition is an outline of blanks, parentheses, AND, OR and NOT (`Clause.outline`), in
which the texts of the tests stand in order (`Clause.renders`). The outline is read as a formula
that says the same as the tree (`Clause.says_outline`), although operands under the same connective
stand without parentheses and negations are written in three ways.

The main statement is `Clause.render_says`. It leaves out pieces of SQL, whose texts may be
anything.
-/

namespace Relmap

open Text
open Template (ofText ofArgument ofMoreArguments)

/-! ### The formula and the outline of a condition -/

mutual

/-- What a condition says of its tests, which are numbered on from `k`. -/
def Clause.formula (k : Nat) : Clause → Formula Nat
  | .leaf _ | .inQuery _ _ _ | .nonempty _ => .atom k
  | .many op first second rest =>
    Clause.joinedFormula (k + first.leaves.length + second.leaves.length) op
      (.connect op (Clause.formula k first) (Clause.formula (k + first.leaves.length) second)) rest
  | .not operand => .not (Clause.formula k operand)

/-- A formula and further operands of a connective. -/
def Clause.joinedFormula (k : Nat) (op : Connective) (left : Formula Nat) :
    List Clause → Formula Nat
  | [] => left
  | c :: rest =>
    Clause.joinedFormula (k + c.leaves.length) op (.connect op left (Clause.formula k c)) rest

end

namespace Outline

/-- An outline in parentheses. -/
def parens (s : List (Sign Nat)) : List (Sign Nat) := .char '(' :: s ++ [.char ')']

/-- The outline of an operand of a connective. -/
def operand (op : Connective) (kind : ClauseKind) (s : List (Sign Nat)) : List (Sign Nat) :=
  match kind with
  | .connective inner => if inner = op then s else parens s
  | _ => s

/-- The outline of two operands of a connective. -/
def joined (op : Connective) (s t : List (Sign Nat)) : List (Sign Nat) :=
  s ++ unmarked (' ' :: op.separator.toList) ++ t

/-- The outline of the negation of an operand. -/
def negation (kind : ClauseKind) (s : List (Sign Nat)) : List (Sign Nat) :=
  match kind with
  | .nonempty => unmarked "NOT ".toList ++ s
  | .connective _ => parens (unmarked "NOT ".toList ++ parens s)
  | .leaf | .not => parens (unmarked "NOT ".toList ++ s)

end Outline

mutual

/-- The text of a condition with its tests, which are numbered on from `k`, as single signs. -/
def Clause.outline (k : Nat) : Clause → List (Sign Nat)
  | .leaf _ | .inQuery _ _ _ | .nonempty _ => [.mark k]
  | .many op first second rest =>
    Clause.joinedOutline (k + first.leaves.length + second.leaves.length) op
      (Outline.joined op (Outline.operand op first.kind (Clause.outline k first))
        (Outline.operand op second.kind (Clause.outline (k + first.leaves.length) second))) rest
  | .not operand => Outline.negation operand.kind (Clause.outline k operand)

/-- An outline and the ones of further operands of a connective. -/
def Clause.joinedOutline (k : Nat) (op : Connective) (left : List (Sign Nat)) :
    List Clause → List (Sign Nat)
  | [] => left
  | c :: rest =>
    Clause.joinedOutline (k + c.leaves.length) op
      (Outline.joined op left (Outline.operand op c.kind (Clause.outline k c))) rest

end

/-! ### Outlines say what conditions say -/

/-- The level of what a condition writes. -/
def ClauseKind.level : ClauseKind → Level
  | .connective op => op.level
  | .leaf | .not | .nonempty => .factor

theorem Says.operand (op : Connective) (kind : ClauseKind) {s : List (Sign Nat)} {g : Formula Nat}
    (h : Says kind.level s g) : Says op.level (Outline.operand op kind s) g := by
  cases kind with
  | connective inner =>
    by_cases hop : inner = op
    · subst hop
      simp only [Outline.operand, if_true]
      exact h
    · simp only [Outline.operand, hop, if_false]
      exact h.toDisjunction.paren.ofFactor op.level
  | leaf => exact h.ofFactor op.level
  | not => exact h.ofFactor op.level
  | nonempty => exact h.ofFactor op.level

theorem Says.negation (kind : ClauseKind) {s : List (Sign Nat)} {g : Formula Nat}
    (h : Says kind.level s g) :
    Says .factor (Outline.negation kind s) g.not := by
  cases kind with
  | connective inner => exact h.toDisjunction.paren.not.toDisjunction.paren
  | leaf => exact h.not.toDisjunction.paren
  | not => exact h.not.toDisjunction.paren
  | nonempty => exact h.not

mutual

/-- **The outline of a condition says what the condition says.** -/
theorem Clause.says_outline :
    ∀ (c : Clause) (k : Nat), Says c.kind.level (c.outline k) (c.formula k)
  | .leaf _, k => .atom k
  | .inQuery _ _ _, k => .atom k
  | .many op first second rest, k => by
    have hfirst := (Clause.says_outline first k).operand op
    have hsecond := (Clause.says_outline second (k + first.leaves.length)).operand op
    exact Clause.says_joinedOutline op rest _ (hfirst.connect op hsecond)
  | .not operand, k => (Clause.says_outline operand k).negation
  | .nonempty _, k => .atom k

theorem Clause.says_joinedOutline (op : Connective) :
    ∀ (cs : List Clause) (k : Nat) {left : List (Sign Nat)} {g : Formula Nat},
      Says op.level left g →
      Says op.level (Clause.joinedOutline k op left cs) (Clause.joinedFormula k op g cs)
  | [], _, _, _, h => h
  | c :: rest, k, _, _, h =>
    Clause.says_joinedOutline op rest _ (h.connect op ((Clause.says_outline c k).operand op))

end

theorem Outline.marks_operand (op : Connective) (kind : ClauseKind) (s : List (Sign Nat)) :
    marks (operand op kind s) = marks s := by
  unfold operand
  split
  · split
    · rfl
    · simp [parens]
  · rfl

theorem Outline.marks_negation (kind : ClauseKind) (s : List (Sign Nat)) :
    marks (negation kind s) = marks s := by
  cases kind <;> simp [negation, parens]

theorem Outline.marks_joined (op : Connective) (s t : List (Sign Nat)) :
    marks (joined op s t) = marks s ++ marks t := by
  simp [joined]

mutual

/-- The tests stand in the outline in order, each once. -/
theorem Clause.marks_outline :
    ∀ (c : Clause) (k : Nat), marks (c.outline k) = List.range' k c.leaves.length
  | .leaf _, k => rfl
  | .inQuery _ _ _, k => rfl
  | .many op first second rest, k => by
    have hfirst := Clause.marks_outline first k
    have hsecond := Clause.marks_outline second (k + first.leaves.length)
    rw [Clause.outline, Clause.marks_joinedOutline op rest, Outline.marks_joined,
      Outline.marks_operand, Outline.marks_operand, hfirst, hsecond, List.range'_append_1,
      Nat.add_assoc, List.range'_append_1, Clause.leaves, List.length_append, List.length_append]
  | .not operand, k => by
    rw [Clause.outline, Outline.marks_negation, Clause.marks_outline operand k, Clause.leaves]
  | .nonempty _, k => rfl

theorem Clause.marks_joinedOutline (op : Connective) :
    ∀ (cs : List Clause) (k : Nat) (left : List (Sign Nat)),
      marks (Clause.joinedOutline k op left cs) =
        marks left ++ List.range' k (Clause.allLeaves cs).length
  | [], _, left => (List.append_nil _).symm
  | c :: rest, k, left => by
    rw [Clause.joinedOutline, Clause.marks_joinedOutline op rest, Outline.marks_joined,
      Outline.marks_operand, Clause.marks_outline c k, List.append_assoc, List.range'_append_1,
      Clause.allLeaves, List.length_append]

end

/-! ### Tests by themselves -/

/-- The texts of tests, each written by itself after the arguments of the ones before it, without
the blank at its end. -/
def Clause.fragments (d : Dialect) (table : Option String) :
    List Argument → List Clause → Except Failure (List (List Char))
  | _, [] => .ok []
  | args, c :: rest => do
    let out ← c.render d table { args }
    return trimEnd out.text.toList :: (← Clause.fragments d table out.args rest)

theorem Clause.length_fragments {d : Dialect} {table : Option String} {cs : List Clause}
    {args : List Argument} {texts : List (List Char)} (h : fragments d table args cs = .ok texts) :
    texts.length = cs.length := by
  induction cs generalizing args texts with
  | nil =>
    cases h
    rfl
  | cons c rest ih =>
    simp only [fragments, Outcome.bind_eq_ok, Outcome.pure_eq_ok] at h
    obtain ⟨out, -, more, hmore, rfl⟩ := h
    rw [List.length_cons, List.length_cons, ih hmore]

theorem Clause.fragments_append {d : Dialect} {table : Option String} {cs ds : List Clause}
    {args : List Argument} {texts more : List (List Char)}
    (h : fragments d table args cs = .ok texts)
    (h' : fragments d table (args ++ cs.flatMap Clause.args) ds = .ok more) :
    fragments d table args (cs ++ ds) = .ok (texts ++ more) := by
  induction cs generalizing args texts with
  | nil =>
    cases h
    simpa using h'
  | cons c rest ih =>
    simp only [fragments, Outcome.bind_eq_ok, Outcome.pure_eq_ok] at h
    obtain ⟨out, hout, others, hothers, rfl⟩ := h
    have hargs : out.args = args ++ c.args := by
      rw [c.writes_template d table] at hout
      obtain ⟨t, ht, rfl⟩ := Outcome.map_eq_ok.mp hout
      rw [Draft.fill, Clause.args_template d table c t ht]
    have hrest := ih hothers (by rwa [hargs, List.append_assoc])
    simp only [List.cons_append, fragments, hout]
    change (do return trimEnd out.text.toList :: (← fragments d table out.args (rest ++ ds))) = _
    rw [hrest]
    rfl

/-- The marks from `k` on stand for these texts. -/
def StandFor (F : Nat → List Char) (k : Nat) (texts : List (List Char)) : Prop :=
  ∀ i < texts.length, F (k + i) = texts.getD i []

theorem StandFor.left {F : Nat → List Char} {k : Nat} {texts more : List (List Char)}
    (h : StandFor F k (texts ++ more)) : StandFor F k texts := by
  intro i hi
  rw [h i (by rw [List.length_append]; omega), List.getD_append _ _ _ _ hi]

theorem StandFor.right {F : Nat → List Char} {k : Nat} {texts more : List (List Char)}
    (h : StandFor F k (texts ++ more)) : StandFor F (k + texts.length) more := by
  intro i hi
  have hall := h (texts.length + i) (by rw [List.length_append]; omega)
  rw [List.getD_append_right _ _ _ _ (Nat.le_add_right _ _), Nat.add_sub_cancel_left] at hall
  rw [Nat.add_assoc, hall]

/-! ### Outlines filled in -/

/-- A text with a blank after it, from an outline. -/
def Template.Follows (F : Nat → List Char) (n : Nat) (t : Template) (s : List (Sign Nat)) : Prop :=
  t.text n = expand F s ++ [' '] ∧ EndsVisibly (expand F s)

namespace Template.Follows

variable {F : Nat → List Char} {n : Nat} {t u : Template} {r s : List (Sign Nat)}

theorem text_trimmed (h : t.Follows F n s) : t.trimmed.text n = expand F s := by
  rw [Template.text_trimmed, h.1, trimEnd_concat_blank (by decide)]
  exact h.2.trimEnd_append []

theorem endsVisibly_parens (s : List (Sign Nat)) : EndsVisibly (expand F (Outline.parens s)) :=
  ⟨'(' :: expand F s, ')', by simp [Outline.parens], by decide⟩

theorem operand (h : t.Follows F n s) (op : Connective) (kind : ClauseKind) :
    (t.operand op kind).Follows F n (Outline.operand op kind s) := by
  cases kind with
  | connective inner =>
    simp only [Template.operand, Outline.operand]
    split
    · exact h
    · refine ⟨?_, endsVisibly_parens s⟩
      simp [Template.text_append, h.text_trimmed, Outline.parens]
  | leaf => exact h
  | not => exact h
  | nonempty => exact h

theorem negation (h : t.Follows F n s) (kind : ClauseKind) :
    (Template.negation kind t).Follows F n (Outline.negation kind s) := by
  cases kind with
  | nonempty =>
    refine ⟨by simp [Template.negation, Outline.negation, Template.text_append, h.1], ?_⟩
    obtain ⟨r, c, hr, hc⟩ := h.2
    exact ⟨"NOT ".toList ++ r, c, by simp [Outline.negation, hr], hc⟩
  | connective inner =>
    refine ⟨?_, endsVisibly_parens _⟩
    simp [Template.negation, Outline.negation, Outline.parens, Template.text_append, h.text_trimmed]
  | leaf =>
    refine ⟨?_, endsVisibly_parens _⟩
    simp [Template.negation, Outline.negation, Outline.parens, Template.text_append, h.text_trimmed]
  | not =>
    refine ⟨?_, endsVisibly_parens _⟩
    simp [Template.negation, Outline.negation, Outline.parens, Template.text_append, h.text_trimmed]

theorem joined (ht : t.Follows F n r) (hu : u.Follows F (n + t.args.length) s) (op : Connective) :
    (t.joined op u).Follows F n (Outline.joined op r s) := by
  refine ⟨?_, ?_⟩
  · simp [Template.joined, Outline.joined, Template.text_append, ht.1, hu.1]
  · obtain ⟨v, c, hv, hc⟩ := hu.2
    exact ⟨expand F r ++ ' ' :: op.separator.toList ++ v, c, by simp [Outline.joined, hv], hc⟩

end Template.Follows

/-! ### Tests end visibly -/

theorem Dialect.endsVisibly_quotedName (d : Dialect) (name : String) :
    EndsVisibly (d.quotedName name).toList := by
  have hquote : isBlank d.nameQuote = false := by cases d <;> rfl
  have hparts : ∀ parts : List (List Char), parts ≠ [] →
      EndsVisibly (['.'].intercalate (parts.map (Quoted.wrap d.nameQuote))) := by
    intro parts hne
    induction parts with
    | nil => exact absurd rfl hne
    | cons part rest ih =>
      by_cases hrest : rest = []
      · subst hrest
        exact ⟨d.nameQuote :: Quoted.double d.nameQuote part, d.nameQuote,
          by simp [Quoted.wrap], hquote⟩
      · obtain ⟨r, c, hr, hc⟩ := ih hrest
        rw [List.map_cons, List.intercalate_cons_of_ne_nil (by simpa using hrest), hr]
        exact ⟨_, c, (List.append_assoc _ _ _).symm, hc⟩
  simpa [Dialect.quotedName] using hparts (nameParts name) (List.splitOn_ne_nil '.' _)

theorem Dialect.endsVisibly_column (d : Dialect) (table : Option String) (column : String) :
    EndsVisibly (d.column table column).toList := by
  cases table with
  | none => exact d.endsVisibly_quotedName column
  | some t =>
    obtain ⟨r, c, hr, hc⟩ := d.endsVisibly_quotedName column
    exact ⟨(d.quotedName t).toList ++ '.' :: r, c, by simp [Dialect.column, hr], hc⟩

/-- A text with a blank after it, whatever comes before. -/
def Template.BlankAfter (t : Template) : Prop := ∀ n, ∃ s, EndsVisibly s ∧ t.text n = s ++ [' ']

/-- A template before a word and a blank. -/
theorem Template.blankAfter_ofText (t : Template) {s : String} (word : String)
    (hs : s.toList = word.toList ++ [' ']) (hword : EndsVisibly word.toList) :
    (t ++ ofText s).BlankAfter := by
  intro n
  obtain ⟨r, c, hr, hc⟩ := hword
  refine ⟨t.text n ++ word.toList, ⟨t.text n ++ r, c, by simp [hr], hc⟩, ?_⟩
  rw [Template.text_append, Template.text_ofText, hs, List.append_assoc]

theorem Rhs.endsVisibly_template (d : Dialect) (table : Option String) (r : Rhs) (n : Nat) :
    EndsVisibly ((r.template d table).text n) := by
  cases r with
  | argument a => simpa [template] using d.endsVisibly_placeholder (n + 1)
  | column c => simpa [template] using d.endsVisibly_column (c.table <|> table) c.column

/-- A test that is no piece of SQL ends with a character that is no blank, and one blank. -/
theorem Leaf.blankAfter_template (d : Dialect) (table : Option String) {l : Leaf}
    (hraw : ∀ sql args, l ≠ .raw sql args) : (l.template d table).BlankAfter := by
  cases l with
  | compare column operator rhs =>
    intro n
    obtain ⟨r, c, hr, hc⟩ := rhs.endsVisibly_template d table n
    exact ⟨_, ⟨(d.column table column ++ " " ++ operator ++ " ").toList ++ r, c, rfl, hc⟩, by
      simp [template, Template.text_append, hr]⟩
  | between column low high =>
    intro n
    obtain ⟨r, c, hr, hc⟩ := d.endsVisibly_placeholder (n + 1 + 1)
    exact ⟨_, ⟨(d.column table column ++ " BETWEEN ").toList ++ (d.placeholder (n + 1)).toList ++
      " AND ".toList ++ r, c, rfl, hc⟩, by simp [template, Template.text_append, hr]⟩
  | inList column first rest negated =>
    exact Template.blankAfter_ofText _ ")" (by simp) ⟨[], ')', by simp, by decide⟩
  | null column negated =>
    intro n
    cases negated with
    | false =>
      exact ⟨_, ⟨(d.column table column).toList ++ " IS NUL".toList, 'L', rfl, by decide⟩,
        by simp [template]⟩
    | true =>
      exact ⟨_, ⟨(d.column table column).toList ++ " IS NOT NUL".toList, 'L', rfl, by decide⟩,
        by simp [template]⟩
  | raw sql args => exact absurd rfl (hraw sql args)

/-! ### Texts of conditions -/

/-- The text of a condition is its outline with the texts of its tests. -/
def Clause.Fills (d : Dialect) (table : Option String) (tests : List Clause) (k : Nat)
    (t : Template) (s : List (Sign Nat)) : Prop :=
  ∀ args, ∃ texts, Clause.fragments d table args tests = .ok texts ∧
    ∀ F, StandFor F k texts → t.Follows F args.length s

namespace Clause.Fills

variable {d : Dialect} {table : Option String} {k : Nat} {t u : Template} {r s : List (Sign Nat)}
  {tests more : List Clause}

theorem operand (h : Fills d table tests k t s) (op : Connective) (kind : ClauseKind) :
    Fills d table tests k (t.operand op kind) (Outline.operand op kind s) := by
  intro args
  obtain ⟨texts, htexts, hfollows⟩ := h args
  exact ⟨texts, htexts, fun F hF => (hfollows F hF).operand op kind⟩

theorem negation (h : Fills d table tests k t s) (kind : ClauseKind) :
    Fills d table tests k (Template.negation kind t) (Outline.negation kind s) := by
  intro args
  obtain ⟨texts, htexts, hfollows⟩ := h args
  exact ⟨texts, htexts, fun F hF => (hfollows F hF).negation kind⟩

theorem joined (h : Fills d table tests k t r) (h' : Fills d table more (k + tests.length) u s)
    (hargs : t.args = tests.flatMap Clause.args) (op : Connective) :
    Fills d table (tests ++ more) k (t.joined op u) (Outline.joined op r s) := by
  intro args
  obtain ⟨texts, htexts, hfollows⟩ := h args
  obtain ⟨others, hothers, hfollows'⟩ := h' (args ++ tests.flatMap Clause.args)
  refine ⟨texts ++ others, fragments_append htexts hothers, fun F hF => ?_⟩
  have hleft := hfollows F hF.left
  have hright := hfollows' F (length_fragments htexts ▸ hF.right)
  rw [List.length_append, ← hargs] at hright
  exact hleft.joined hright op

/-- A test fills its own mark. -/
theorem ofTest {c : Clause} (h : c.template d table = .ok t) (hblank : t.BlankAfter) (k : Nat) :
    Fills d table [c] k t [.mark k] := by
  intro args
  obtain ⟨s, hs, htext⟩ := hblank args.length
  have hout : c.render d table { args } = .ok (Draft.fill { args } t) := by
    rw [c.writes_template d table, h]
    rfl
  refine ⟨[s], ?_, fun F hF => ?_⟩
  · have htrim : trimEnd (Draft.fill { args } t).text.toList = s := by
      simpa [Draft.fill, htext, trimEnd_concat_blank (c := ' ') (by decide)]
        using hs.trimEnd_append []
    simp only [fragments, hout]
    rw [← htrim]
    rfl
  · have hk : F k = s := hF 0 (Nat.lt_succ_self 0)
    exact ⟨by simp [htext, hk], by simpa [hk] using hs⟩

end Clause.Fills

/-- An operand has the arguments of its tests. -/
theorem Clause.args_operand_template {d : Dialect} {table : Option String} {c : Clause}
    {t : Template} (h : c.template d table = .ok t) (op : Connective) :
    (t.operand op c.kind).args = c.leaves.flatMap Clause.args := by
  rw [Template.args_operand, Clause.args_template d table c t h, Clause.args_eq_leaves]

mutual

/-- **The text of a condition without pieces of SQL** is its outline with the texts of its tests. -/
theorem Clause.fills_outline (d : Dialect) (table : Option String) :
    ∀ (c : Clause) (k : Nat) (t : Template), (∀ sql args, .leaf (.raw sql args) ∉ c.leaves) →
      c.template d table = .ok t → Fills d table c.leaves k t (c.outline k)
  | .leaf l, k, t, hraw, ht => by
    have hl : ∀ sql args, l ≠ .raw sql args :=
      fun sql args h => hraw sql args (by simp [Clause.leaves, h])
    refine .ofTest ht ?_ k
    cases ht
    exact l.blankAfter_template d table hl
  | .inQuery column query negated, k, t, _, ht => by
    refine .ofTest ht ?_ k
    simp only [Clause.template, Outcome.map_eq_ok] at ht
    obtain ⟨u, -, rfl⟩ := ht
    exact Template.blankAfter_ofText _ ")" (by simp) ⟨[], ')', by simp, by decide⟩
  | .many op first second rest, k, t, hraw, ht => by
    simp only [Clause.template, Outcome.bind_eq_ok] at ht
    obtain ⟨a, ha, b, hb, ht⟩ := ht
    simp only [Clause.leaves, List.mem_append, not_or] at hraw
    have hfirst := (Clause.fills_outline d table first k a (fun sql args => (hraw sql args).1.1)
      ha).operand op first.kind
    have hsecond := (Clause.fills_outline d table second (k + first.leaves.length) b
      (fun sql args => (hraw sql args).1.2) hb).operand op second.kind
    have hargs := Clause.args_operand_template ha op
    have hargs' := Clause.args_operand_template hb op
    have hjoined :=
      Clause.fills_joinedOutline d table op rest k _ _ t (hfirst.joined hsecond hargs op)
        (by rw [Template.args_joined, hargs, hargs', List.flatMap_append])
        (fun sql args => (hraw sql args).2) ht
    rwa [List.length_append, ← Nat.add_assoc] at hjoined
  | .not operand, k, t, hraw, ht => by
    obtain ⟨u, hu, rfl⟩ := Outcome.map_eq_ok.mp ht
    exact (Clause.fills_outline d table operand k u hraw hu).negation operand.kind
  | .nonempty query, k, t, _, ht => by
    refine .ofTest ht ?_ k
    simp only [Clause.template, Outcome.map_eq_ok] at ht
    obtain ⟨u, -, rfl⟩ := ht
    exact Template.blankAfter_ofText _ ")" (by simp) ⟨[], ')', by simp, by decide⟩

theorem Clause.fills_joinedOutline (d : Dialect) (table : Option String) (op : Connective) :
    ∀ (cs : List Clause) (k : Nat) {tests : List Clause} (left : Template) (s : List (Sign Nat))
      (t : Template),
      Fills d table tests k left s → left.args = tests.flatMap Clause.args →
      (∀ sql args, .leaf (.raw sql args) ∉ Clause.allLeaves cs) →
      Clause.joinedTemplate d table op left cs = .ok t →
      Fills d table (tests ++ Clause.allLeaves cs) k t
        (Clause.joinedOutline (k + tests.length) op s cs)
  | [], k, tests, left, s, t, hleft, _, _, ht => by
    cases ht
    rw [Clause.allLeaves, List.append_nil]
    exact hleft
  | c :: rest, k, tests, left, s, t, hleft, hargs, hraw, ht => by
    simp only [Clause.joinedTemplate, Outcome.bind_eq_ok] at ht
    obtain ⟨a, ha, ht⟩ := ht
    simp only [Clause.allLeaves, List.mem_append, not_or] at hraw
    have hc := (Clause.fills_outline d table c (k + tests.length) a
      (fun sql args => (hraw sql args).1) ha).operand op c.kind
    have hargs' := Clause.args_operand_template ha op
    have hrest := Clause.fills_joinedOutline d table op rest k _ _ t (hleft.joined hc hargs op)
      (by rw [Template.args_joined, hargs, hargs', List.flatMap_append])
      (fun sql args => (hraw sql args).2) ht
    rwa [List.append_assoc, List.length_append, ← Nat.add_assoc] at hrest

end

/-- **The text of a condition means what the condition means.** It is made of the texts of the
tests, each as it would be by itself, in order and each once, and of what stands between them. Cut
into tokens and read with each test as one atom, the text gives a formula, and every formula that it
can be read as has the value of the condition, under every logic and for all values of the tests. -/
theorem Clause.render_says (c : Clause) (d : Dialect) (table : Option String) (draft out : Draft)
    (hraw : ∀ sql args, .leaf (.raw sql args) ∉ c.leaves) (h : c.render d table draft = .ok out) :
    ∃ texts signs tokens, Clause.fragments d table draft.args c.leaves = .ok texts ∧
      out.text = draft.text ++ String.ofList (expand (fun i => texts.getD i []) signs ++ [' ']) ∧
      marks signs = List.range c.leaves.length ∧ Token.scan signs = some tokens ∧
      (∃ f, Reads .disjunction tokens f) ∧
      ∀ f, Reads .disjunction tokens f → ∀ (τ : Type) (L : Logic τ) (v : Nat → τ),
        f.eval L v = (c.formula 0).eval L v := by
  rw [c.writes_template d table] at h
  obtain ⟨t, ht, rfl⟩ := Outcome.map_eq_ok.mp h
  obtain ⟨texts, htexts, hfollows⟩ := Clause.fills_outline d table c 0 t hraw ht draft.args
  obtain ⟨tokens, f, hscan, hread, hsame⟩ := (c.says_outline 0).toDisjunction
  have hF : StandFor (fun i => texts.getD i []) 0 texts := fun i _ => by rw [Nat.zero_add]
  have hmarks : marks (c.outline 0) = List.range c.leaves.length := by
    rw [Clause.marks_outline, List.range_eq_range']
  refine ⟨texts, c.outline 0, tokens, htexts, ?_, hmarks, hscan, ⟨f, hread⟩, fun g hg => ?_⟩
  · rw [Draft.fill, (hfollows _ hF).1]
  · rw [hg.unique hread]
    exact hsame

/-- A negation around a connective, under another connective, read with two truth values and in the
logic of SQL. -/
theorem render_says_of_negated_or :
    ∃ out texts signs tokens,
      Clause.render .sqlite none (.many .and (.leaf (.null "a" false))
        (.not (.many .or (.leaf (.null "b" false)) (.leaf (.null "c" true)) [])) []) {} = .ok out ∧
      out.text = "" ++ String.ofList (expand (fun i => List.getD texts i []) signs ++ [' ']) ∧
      marks signs = [0, 1, 2] ∧ Token.scan signs = some tokens ∧
      ∀ f, Reads .disjunction tokens f →
        (∀ v : Nat → Bool, f.eval .boolean v = (v 0 && !(v 1 || v 2))) ∧
        ∀ v : Nat → Truth, f.eval .kleene v = (v 0).min ((v 1).max (v 2)).opposite := by
  obtain ⟨out, hout⟩ : ∃ out, Clause.render .sqlite none (.many .and (.leaf (.null "a" false))
      (.not (.many .or (.leaf (.null "b" false)) (.leaf (.null "c" true)) [])) []) {} =
      .ok out := ⟨_, rfl⟩
  obtain ⟨texts, signs, tokens, -, htext, hmarks, hscan, -, hsays⟩ :=
    Clause.render_says _ .sqlite none {} out (by simp [Clause.leaves, Clause.allLeaves]) hout
  refine ⟨out, texts, signs, tokens, hout, htext, hmarks, hscan,
    fun f hf => ⟨fun v => ?_, fun v => ?_⟩⟩
  · exact hsays f hf Bool .boolean v
  · exact hsays f hf Truth .kleene v

end Relmap
