import Relmap.Proofs.Statement.Operand

/-!
# The meaning of conditions with pieces of SQL

The text of a condition is its wording with the texts of its tests (`Clause.worded`). Together with
how wordings are read this says when the text means what the condition means: exactly if every piece
of SQL in it fits its place (`Clause.means_operands_iff`).
-/

namespace Relmap

open Text
open Template (ofText)

/-! ### Texts of tests -/

/-- The texts of the tests of a leaf whose text is given, where so many arguments come before: a
piece of SQL has the tests that it is made of, with their placeholders numbered, and any other leaf
is one test. -/
def Clause.ownTexts (ρ : String → Piece) (d : Dialect) (n : Nat) (text : List Char) :
    Clause → List (List Char)
  | .leaf (.raw sql _) => (ρ sql).numbered d n
  | _ => [text]

/-- The texts of the tests of leaves one after another. -/
def Clause.testTexts (ρ : String → Piece) (d : Dialect) (n : Nat) :
    List Clause → List (List Char) → List (List (List Char))
  | c :: rest, text :: texts =>
    c.ownTexts ρ d n text :: Clause.testTexts ρ d (n + c.args.length) rest texts
  | _, _ => []

/-- The text of a test, by the number of its leaf and its number in it. -/
def testText (texts : List (List (List Char))) (a : Nat × Nat) : List Char :=
  (texts.getD a.1 []).getD a.2 []

/-- The marks of the leaves from `k` on stand for these texts. -/
def Labels (F : Nat × Nat → List Char) (k : Nat) (texts : List (List (List Char))) : Prop :=
  ∀ i < texts.length, ∀ j, F (k + i, j) = (texts.getD i []).getD j []

section

variable {F : Nat × Nat → List Char} {k : Nat} {texts more : List (List (List Char))}

theorem Labels.left (h : Labels F k (texts ++ more)) : Labels F k texts := by
  intro i hi j
  rw [h i (by rw [List.length_append]; omega), List.getD_append _ _ _ _ hi]

theorem Labels.right (h : Labels F k (texts ++ more)) : Labels F (k + texts.length) more := by
  intro i hi j
  have hall := h (texts.length + i) (by rw [List.length_append]; omega) j
  rw [List.getD_append_right _ _ _ _ (Nat.le_add_right _ _), Nat.add_sub_cancel_left] at hall
  rw [Nat.add_assoc, hall]

theorem labels_testText (texts : List (List (List Char))) : Labels (testText texts) 0 texts :=
  fun i _ j => by rw [Nat.zero_add, testText]

end

namespace Clause

variable {ρ : String → Piece} {d : Dialect}

theorem length_testTexts {n : Nat} {cs : List Clause} {texts : List (List Char)}
    (h : texts.length = cs.length) : (testTexts ρ d n cs texts).length = cs.length := by
  induction cs generalizing n texts with
  | nil => rfl
  | cons c rest ih =>
    cases texts with
    | nil => cases h
    | cons text texts => exact congrArg (· + 1) (ih (Nat.succ.inj h))

theorem testTexts_append {n : Nat} {cs ds : List Clause} {texts more : List (List Char)}
    (h : texts.length = cs.length) :
    testTexts ρ d n (cs ++ ds) (texts ++ more) =
      testTexts ρ d n cs texts ++
        testTexts ρ d (n + (cs.flatMap Clause.args).length) ds more := by
  induction cs generalizing n texts with
  | nil =>
    obtain rfl : texts = [] := List.length_eq_zero_iff.mp h
    rfl
  | cons c rest ih =>
    cases texts with
    | nil => cases h
    | cons text texts =>
      rw [List.cons_append, List.cons_append, testTexts, testTexts, ih (Nat.succ.inj h),
        List.flatMap_cons, List.length_append, Nat.add_assoc, List.cons_append]

end Clause

/-! ### Wordings filled in -/

/-- A text with a blank after it, from a wording whose tests end visibly. -/
def Template.Spells (F : Nat × Nat → List Char) (n : Nat) (t : Template)
    (s : List (Sign (Nat × Nat))) : Prop :=
  t.text n = expand F s ++ [' '] ∧ ∀ a ∈ marks s, EndsVisibly (F a)

namespace Template.Spells

variable {F : Nat × Nat → List Char} {n : Nat} {t u : Template} {r s : List (Sign (Nat × Nat))}

theorem text_trimmed (h : t.Spells F n s) : t.trimmed.text n = expand F (trimMarked s) := by
  rw [Template.text_trimmed, h.1, trimEnd_concat_blank (by decide), trimEnd_expand h.2]

theorem operand (h : t.Spells F n s) (op : Connective) (kind : ClauseKind) :
    (t.operand op kind).Spells F n (Wording.operand op kind s) := by
  cases kind with
  | connective inner =>
    simp only [Template.operand, Wording.operand]
    split
    · exact h
    · refine ⟨?_, ?_⟩
      · simp [Template.text_append, h.text_trimmed, Wording.parens]
      · simpa [Wording.parens] using h.2
  | leaf => exact h
  | not => exact h
  | nonempty => exact h

theorem negation (h : t.Spells F n s) (kind : ClauseKind) :
    (Template.negation kind t).Spells F n (Wording.negation kind s) := by
  cases kind with
  | nonempty =>
    refine ⟨?_, ?_⟩
    · simp [Template.negation, Wording.negation, Wording.not, Template.text_append, h.1]
    · simpa [Wording.negation, Wording.not] using h.2
  | connective inner =>
    refine ⟨?_, ?_⟩
    · simp [Template.negation, Wording.negation, Wording.not, Wording.parens, Template.text_append,
        h.text_trimmed]
    · simpa [Wording.negation, Wording.not, Wording.parens] using h.2
  | leaf =>
    refine ⟨?_, ?_⟩
    · simp [Template.negation, Wording.negation, Wording.not, Wording.parens, Template.text_append,
        h.text_trimmed]
    · simpa [Wording.negation, Wording.not, Wording.parens] using h.2
  | not =>
    refine ⟨?_, ?_⟩
    · simp [Template.negation, Wording.negation, Wording.not, Wording.parens, Template.text_append,
        h.text_trimmed]
    · simpa [Wording.negation, Wording.not, Wording.parens] using h.2

theorem joined (ht : t.Spells F n r) (hu : u.Spells F (n + t.args.length) s) (op : Connective) :
    (t.joined op u).Spells F n (Wording.joined op r s) := by
  refine ⟨?_, fun a ha => ?_⟩
  · simp [Template.joined, Wording.joined, Template.text_append, ht.1, hu.1]
  · have hmem : a ∈ marks r ∨ a ∈ marks s := by simpa [Wording.joined] using ha
    exact hmem.elim (ht.2 a) (hu.2 a)

end Template.Spells

/-- The text of a condition is its wording with the texts of its tests. -/
def Clause.Worded (ρ : String → Piece) (d : Dialect) (table : Option String) (tests : List Clause)
    (k : Nat) (t : Template) (s : List (Sign (Nat × Nat))) : Prop :=
  ∀ args, ∃ texts, Clause.fragments d table args tests = .ok texts ∧
    ∀ F, Labels F k (Clause.testTexts ρ d args.length tests texts) → t.Spells F args.length s

namespace Clause.Worded

variable {ρ : String → Piece} {d : Dialect} {table : Option String} {k : Nat} {t u : Template}
  {r s : List (Sign (Nat × Nat))} {tests more : List Clause}

theorem operand (h : Worded ρ d table tests k t s) (op : Connective) (kind : ClauseKind) :
    Worded ρ d table tests k (t.operand op kind) (Wording.operand op kind s) := by
  intro args
  obtain ⟨texts, htexts, hspells⟩ := h args
  exact ⟨texts, htexts, fun F hF => (hspells F hF).operand op kind⟩

theorem negation (h : Worded ρ d table tests k t s) (kind : ClauseKind) :
    Worded ρ d table tests k (Template.negation kind t) (Wording.negation kind s) := by
  intro args
  obtain ⟨texts, htexts, hspells⟩ := h args
  exact ⟨texts, htexts, fun F hF => (hspells F hF).negation kind⟩

theorem joined (h : Worded ρ d table tests k t r)
    (h' : Worded ρ d table more (k + tests.length) u s)
    (hargs : t.args = tests.flatMap Clause.args) (op : Connective) :
    Worded ρ d table (tests ++ more) k (t.joined op u) (Wording.joined op r s) := by
  intro args
  obtain ⟨texts, htexts, hspells⟩ := h args
  obtain ⟨others, hothers, hspells'⟩ := h' (args ++ tests.flatMap Clause.args)
  have hlength := length_fragments htexts
  refine ⟨texts ++ others, fragments_append htexts hothers, fun F hF => ?_⟩
  rw [testTexts_append hlength] at hF
  have hright := hF.right
  rw [length_testTexts hlength, ← List.length_append] at hright
  have hmore := hspells' F hright
  rw [List.length_append, ← hargs] at hmore
  exact (hspells F hF.left).joined hmore op

/-- A test by itself. -/
theorem ofTest {c : Clause} (hreading : ∀ n text, c.ownTexts ρ d n text = [text])
    (h : c.template d table = .ok t) (hblank : t.BlankAfter) (k : Nat) :
    Worded ρ d table [c] k t [.mark (k, 0)] := by
  intro args
  obtain ⟨s, hs, htext⟩ := hblank args.length
  have hout : c.render d table { args } = .ok (Draft.fill { args } t) := by
    rw [c.writes_template d table, h]
    rfl
  refine ⟨[s], ?_, fun F hF => ?_⟩
  · have htrim : trimEnd (Draft.fill { args } t).text.toList = s := by
      simpa [Draft.fill, htext, trimEnd_concat_blank (c := ' ') (by decide)]
        using hs.trimEnd_append []
    simp only [fragments, hout]
    rw [← htrim]
    rfl
  · have hk : F (k, 0) = s := by
      have hF := hF 0 Nat.one_pos 0
      rw [testTexts, hreading] at hF
      exact hF
    exact ⟨by simp [htext, hk], by simpa [hk] using hs⟩

/-- A piece of SQL. -/
theorem ofRaw {sql : String} {args : List Argument} (hρ : (ρ sql).text = sql.toList) (k : Nat) :
    Worded ρ d table [.leaf (.raw sql args)] k ((Leaf.raw sql args).template d table)
      ((ρ sql).signs.map (Sign.map (Prod.mk k))) := by
  intro before
  refine ⟨_, rfl, fun F hF => ?_⟩
  have hF (j : Nat) : F (k, j) = ((ρ sql).numbered d before.length).getD j [] :=
    hF 0 Nat.one_pos j
  refine ⟨?_, fun a ha => ?_⟩
  · have hsame : F ∘ Prod.mk k = fun j => ((ρ sql).numbered d before.length).getD j [] := funext hF
    have htext := d.renumber_eq_expand before.length 0 none sql.toList
    rw [Nat.add_zero, ← hρ, Piece.renumber_text, hρ] at htext
    rw [Template.text, Leaf.template, expand_append, expand_unmarked, ← htext, expand_map, hsame]
  · obtain ⟨j, hj, rfl⟩ : ∃ j ∈ marks (ρ sql).signs, (k, j) = a := by simpa [marks_map] using ha
    rw [(ρ sql).marks_signs, List.mem_range, ← (ρ sql).length_numbered d before.length] at hj
    rw [hF, List.getD_eq_getElem _ _ hj]
    exact (ρ sql).endsVisibly_numbered d _ _ (List.getElem_mem hj)

end Clause.Worded

section

variable {ρ : String → Piece}

/-- A leaf that is no piece of SQL is one test. -/
theorem Leaf.signs_reading {x : Leaf} (hraw : ∀ sql args, x ≠ .raw sql args) :
    (x.reading ρ).signs = [.mark 0] := by
  cases x with
  | raw sql args => exact absurd rfl (hraw sql args)
  | compare | between | inList | null => rfl

theorem Leaf.ownTexts_eq {x : Leaf} (hraw : ∀ sql args, x ≠ .raw sql args) (d : Dialect) (n : Nat)
    (text : List Char) : (Clause.leaf x).ownTexts ρ d n text = [text] := by
  cases x with
  | raw sql args => exact absurd rfl (hraw sql args)
  | compare | between | inList | null => rfl

mutual

/-- **The text of a condition is its wording** with the texts of its tests. -/
theorem Clause.worded (d : Dialect) (table : Option String) :
    ∀ (c : Clause) (k : Nat) (t : Template),
      (∀ sql args, .leaf (.raw sql args) ∈ c.leaves → (ρ sql).text = sql.toList) →
      c.template d table = .ok t → Worded ρ d table c.leaves k t (c.wording ρ k)
  | .leaf x, k, t, hρ, ht => by
    cases ht
    by_cases hraw : ∃ sql args, x = .raw sql args
    · obtain ⟨sql, args, rfl⟩ := hraw
      exact .ofRaw (hρ sql args (List.mem_singleton_self _)) k
    · have hx : ∀ sql args, x ≠ .raw sql args := fun sql args h => hraw ⟨sql, args, h⟩
      rw [Clause.wording, Leaf.signs_reading hx]
      exact .ofTest (Leaf.ownTexts_eq hx d) rfl (x.blankAfter_template d table hx) k
  | .inQuery column query negated, k, t, _, ht => by
    refine .ofTest (fun _ _ => rfl) ht ?_ k
    simp only [Clause.template, Outcome.map_eq_ok] at ht
    obtain ⟨u, -, rfl⟩ := ht
    exact Template.blankAfter_ofText _ ")" (by simp) ⟨[], ')', by simp, by decide⟩
  | .many op first second rest, k, t, hρ, ht => by
    simp only [Clause.template, Outcome.bind_eq_ok] at ht
    obtain ⟨a, ha, b, hb, ht⟩ := ht
    have hfirst := (Clause.worded d table first k a
      (fun sql args h => hρ sql args (by simp [Clause.leaves, h])) ha).operand op first.kind
    have hsecond := (Clause.worded d table second (k + first.leaves.length) b
      (fun sql args h => hρ sql args (by simp [Clause.leaves, h])) hb).operand op second.kind
    have hargs := Clause.args_operand_template ha op
    have hargs' := Clause.args_operand_template hb op
    have hjoined := Clause.worded_joined d table op rest k _ _ t (hfirst.joined hsecond hargs op)
      (by rw [Template.args_joined, hargs, hargs', List.flatMap_append])
      (fun sql args h => hρ sql args (by simp [Clause.leaves, h])) ht
    rwa [List.length_append, ← Nat.add_assoc] at hjoined
  | .not operand, k, t, hρ, ht => by
    obtain ⟨u, hu, rfl⟩ := Outcome.map_eq_ok.mp ht
    exact (Clause.worded d table operand k u hρ hu).negation operand.kind
  | .nonempty query, k, t, _, ht => by
    refine .ofTest (fun _ _ => rfl) ht ?_ k
    simp only [Clause.template, Outcome.map_eq_ok] at ht
    obtain ⟨u, -, rfl⟩ := ht
    exact Template.blankAfter_ofText _ ")" (by simp) ⟨[], ')', by simp, by decide⟩

theorem Clause.worded_joined (d : Dialect) (table : Option String) (op : Connective) :
    ∀ (cs : List Clause) (k : Nat) {tests : List Clause} (left : Template)
      (s : List (Sign (Nat × Nat))) (t : Template),
      Worded ρ d table tests k left s → left.args = tests.flatMap Clause.args →
      (∀ sql args, .leaf (.raw sql args) ∈ Clause.allLeaves cs → (ρ sql).text = sql.toList) →
      Clause.joinedTemplate d table op left cs = .ok t →
      Worded ρ d table (tests ++ Clause.allLeaves cs) k t
        (Clause.joinedWording ρ (k + tests.length) op s cs)
  | [], k, tests, left, s, t, hleft, _, _, ht => by
    cases ht
    rw [Clause.allLeaves, List.append_nil]
    exact hleft
  | c :: rest, k, tests, left, s, t, hleft, hargs, hρ, ht => by
    simp only [Clause.joinedTemplate, Outcome.bind_eq_ok] at ht
    obtain ⟨a, ha, ht⟩ := ht
    have hc := (Clause.worded d table c (k + tests.length) a
      (fun sql args h => hρ sql args (by simp [Clause.allLeaves, h])) ha).operand op c.kind
    have hargs' := Clause.args_operand_template ha op
    have hrest := Clause.worded_joined d table op rest k _ _ t (hleft.joined hc hargs op)
      (by rw [Template.args_joined, hargs, hargs', List.flatMap_append])
      (fun sql args h => hρ sql args (by simp [Clause.allLeaves, h])) ht
    rwa [List.append_assoc, List.length_append, ← Nat.add_assoc] at hrest

end

end

/-! ### Pieces of SQL evaluated first -/

section

variable {ρ : String → Piece} {τ : Type}

/-- The value of a leaf among others, where a piece of SQL is given its own value first. -/
def Clause.leafValue (ρ : String → Piece) (L : Logic τ) (v : Nat × Nat → τ) (leaves : List Clause)
    (i : Nat) : τ :=
  ((leaves[i]?.map (Clause.reading ρ)).getD .test).formula.eval L fun j => v (i, j)

/-- The leaves from number `k` on have these values. -/
def LeafValues (ρ : String → Piece) (L : Logic τ) (v : Nat × Nat → τ) (w : Nat → τ) (k : Nat)
    (leaves : List Clause) : Prop :=
  ∀ i c, leaves[i]? = some c → w (k + i) = (c.reading ρ).formula.eval L fun j => v (k + i, j)

variable {L : Logic τ} {v : Nat × Nat → τ} {w : Nat → τ} {k : Nat} {cs ds : List Clause}

theorem LeafValues.left (h : LeafValues ρ L v w k (cs ++ ds)) : LeafValues ρ L v w k cs := by
  intro i c hc
  obtain ⟨hi, -⟩ := List.getElem?_eq_some_iff.mp hc
  exact h i c (by rwa [List.getElem?_append_left hi])

theorem LeafValues.right (h : LeafValues ρ L v w k (cs ++ ds)) :
    LeafValues ρ L v w (k + cs.length) ds := by
  intro i c hc
  rw [Nat.add_assoc]
  exact h (cs.length + i) c (by
    rwa [List.getElem?_append_right (Nat.le_add_right _ _), Nat.add_sub_cancel_left])

theorem leafValues_leafValue (leaves : List Clause) :
    LeafValues ρ L v (Clause.leafValue ρ L v leaves) 0 leaves := by
  intro i c hc
  simp [Clause.leafValue, hc]

theorem Formula.eval_connect_congr {α β : Type} {f f' : Formula α} {g g' : Formula β} {v : α → τ}
    {w : β → τ} (op : Connective) (h : f.eval L v = g.eval L w) (h' : f'.eval L v = g'.eval L w) :
    (connect op f f').eval L v = (connect op g g').eval L w := by
  cases op with
  | and => exact congrArg₂ L.and h h'
  | or => exact congrArg₂ L.or h h'

mutual

/-- What a condition says of its tests is what it says of its leaves once they have their values. -/
theorem Clause.eval_nested :
    ∀ (c : Clause) (k : Nat), LeafValues ρ L v w k c.leaves →
      (c.nested ρ k).eval L v = (c.formula k).eval L w
  | .leaf x, k, h => by
    have hleaf := h 0 (.leaf x) rfl
    rw [Clause.nested, Formula.map, Formula.eval_bind]
    exact hleaf.symm
  | .inQuery column query negated, k, h => (h 0 (.inQuery column query negated) rfl).symm
  | .many op first second rest, k, h => by
    have hfirst := Clause.eval_nested first k h.left.left
    have hsecond := Clause.eval_nested second (k + first.leaves.length) h.left.right
    have hrest := h.right
    rw [List.length_append, ← Nat.add_assoc] at hrest
    exact Clause.eval_joinedNested op rest _ hrest (Formula.eval_connect_congr op hfirst hsecond)
  | .not operand, k, h => congrArg L.not (Clause.eval_nested operand k h)
  | .nonempty query, k, h => (h 0 (.nonempty query) rfl).symm

theorem Clause.eval_joinedNested (op : Connective) :
    ∀ (cs : List Clause) (k : Nat) {left : Formula (Nat × Nat)} {left' : Formula Nat},
      LeafValues ρ L v w k (Clause.allLeaves cs) → left.eval L v = left'.eval L w →
      (Clause.joinedNested ρ k op left cs).eval L v =
        (Clause.joinedFormula k op left' cs).eval L w
  | [], _, _, _, _, hleft => hleft
  | c :: rest, k, _, _, h, hleft =>
    Clause.eval_joinedNested op rest _ h.right
      (Formula.eval_connect_congr op hleft (Clause.eval_nested c k h.left))

end

end

/-- **A piece of SQL stays one operand exactly where it fits its place.** The text of a condition is
made of the texts of its tests, in order and each once, those in pieces of SQL with their
placeholders numbered, and of what stands between them. It is read as one formula. If every piece
holds together as closely as its place asks, then that formula has the value of the condition in
which every piece is given its own value first, under every logic and for all values of the tests.
If some piece does not, then the two differ for some truth values of the tests. -/
theorem Clause.piece_stays_operand_iff (ρ : String → Piece) (c : Clause) (d : Dialect)
    (table : Option String) (draft out : Draft)
    (hρ : ∀ sql args, .leaf (.raw sql args) ∈ c.leaves → (ρ sql).text = sql.toList)
    (h : c.render d table draft = .ok out) :
    ∃ texts signs tokens f, Clause.fragments d table draft.args c.leaves = .ok texts ∧
      out.text = draft.text ++ String.ofList
        (expand (testText (Clause.testTexts ρ d draft.args.length c.leaves texts)) signs ++ [' ']) ∧
      marks signs = Clause.testMarks ρ 0 c.leaves ∧ Token.scan (unstyle signs) = some tokens ∧
      Reads .disjunction tokens f ∧ (∀ g, Reads .disjunction tokens g → g = f) ∧
      (c.Fits ρ .disjunction → ∀ (τ : Type) (L : Logic τ) (v : Nat × Nat → τ),
        f.eval L v = (c.formula 0).eval L (Clause.leafValue ρ L v c.leaves)) ∧
      (¬c.Fits ρ .disjunction → ∃ v : Nat × Nat → Bool,
        f.eval .boolean v ≠ (c.formula 0).eval .boolean (Clause.leafValue ρ .boolean v c.leaves)) := by
  rw [c.writes_template d table] at h
  obtain ⟨t, ht, rfl⟩ := Outcome.map_eq_ok.mp h
  obtain ⟨texts, htexts, hspells⟩ := Clause.worded d table c 0 t hρ ht draft.args
  obtain ⟨tokens, gs, hscan, hgrouped, hastray⟩ := (c.exposes_wording (ρ := ρ) 0).1
  obtain ⟨f, hread, hvalue⟩ := hgrouped.groups.toReads
  have hmarks : marks (c.wording ρ 0) = Clause.testMarks ρ 0 c.leaves := by
    rw [← marks_unstyle, ← Token.atoms_scan hscan, ← hgrouped.atoms_eq, c.atoms_nested]
  refine ⟨texts, c.wording ρ 0, tokens, f, htexts, ?_, hmarks, hscan, hread,
    fun g hg => hg.unique hread, fun hfits τ L v => ?_, fun hno => ?_⟩
  · rw [Draft.fill, (hspells _ (labels_testText _)).1]
  · obtain ⟨ts, g, hscan', hread', hsame⟩ := (c.says_wording 0 .disjunction hfits).toDisjunction
    cases hscan.symm.trans hscan'
    rw [hread.unique hread', hsame τ L v, c.eval_nested 0 (leafValues_leafValue c.leaves)]
  · obtain ⟨v, hv⟩ := (hastray .or hno).misread
    refine ⟨v, ?_⟩
    rw [hvalue, ← c.eval_nested 0 (leafValues_leafValue c.leaves)]
    exact hv.symm

/-! ### Two tests in one piece -/

/-- A piece of two tests with a connective between them. -/
def Piece.ofTwo (op : Connective) (s t : List Char) (hs : EndsVisibly s) (ht : EndsVisibly t) :
    Piece where
  size := 2
  signs := Wording.joined op [.mark 0] [.mark 1]
  tokens := [.atom 0, .connective op, .atom 1]
  formula := .connect op (.atom 0) (.atom 1)
  marks_signs := by cases op <;> rfl
  scan_signs := by
    have hone (i : Nat) : Token.scan (unstyle [.mark i]) = some [.atom i] := rfl
    rw [Wording.unstyle_joined]
    exact Token.scan_connect op (hone 0) (hone 1)
  reads := (((Reads.atom 0).ofFactor op.level).connect op ((Reads.atom 1).ofFactor _)).toDisjunction
  tests := [s, t]
  length_tests := rfl
  endsVisibly := by simp [hs, ht]

/-- Two tests with AND between them fit under AND and OR, and with OR between them under OR only. -/
theorem Piece.stands_ofTwo_iff {op : Connective} {s t : List Char} {hs : EndsVisibly s}
    {ht : EndsVisibly t} {l : Level} :
    (Piece.ofTwo op s t hs ht).Stands l ↔ l = op.level ∨ l = .disjunction := by
  have hread : Reads op.level [.atom 0, .connective op, .atom 1]
      (.connect op (.atom 0) (.atom 1) : Formula Nat) :=
    ((Reads.atom 0).ofFactor op.level).connect op ((Reads.atom 1).ofFactor _)
  constructor
  · intro h
    have htakes := Reader.takes_of_reads h
    cases l with
    | disjunction => exact .inr rfl
    | conjunction =>
      cases op with
      | and => exact .inl rfl
      | or =>
        -- an OR ends every conjunction
        have hnone := htakes none []
        cases hnone
    | factor =>
      -- a negation before the first test stays there
      have hnegated := htakes { negations := 1 } []
      cases op <;> cases hnegated
  · rintro (rfl | rfl)
    · exact hread
    · exact hread.toDisjunction

/-- A conjunction stays one operand under OR, and its placeholders are numbered in it. -/
theorem piece_of_and_under_or :
    ∃ out texts signs tokens f,
      Clause.render .postgresql none (.many .or (.leaf (.null "name" false))
        (.leaf (.raw "a = ? AND b = ?" [.raw .null, .raw .null])) []) {} = .ok out ∧
      out.text = "" ++ String.ofList (expand (testText texts) signs ++ [' ']) ∧
      texts = [["\"name\" IS NULL".toList], ["a = $1".toList, "b = $2".toList]] ∧
      Token.scan (unstyle signs) = some tokens ∧ Reads .disjunction tokens f ∧
      ∀ v : Nat × Nat → Bool, f.eval .boolean v = (v (0, 0) || (v (1, 0) && v (1, 1))) := by
  obtain ⟨texts, signs, tokens, f, htexts, htext, -, hscan, hread, -, hsays, -⟩ :=
    Clause.piece_stays_operand_iff
      (fun _ => .ofTwo .and "a = ?".toList "b = ?".toList ⟨"a = ".toList, '?', rfl, by decide⟩
        ⟨"b = ".toList, '?', rfl, by decide⟩)
      (.many .or (.leaf (.null "name" false))
        (.leaf (.raw "a = ? AND b = ?" [.raw .null, .raw .null])) []) .postgresql none {} _
      (by
        intro sql args h
        simp [Clause.leaves, Clause.allLeaves] at h
        obtain ⟨rfl, -⟩ := h
        rfl) rfl
  cases htexts
  exact ⟨_, _, signs, tokens, f, rfl, htext, rfl, hscan, hread,
    hsays ⟨Reading.stands_test _, Piece.stands_ofTwo_iff.mpr (.inr rfl), trivial⟩ Bool .boolean⟩

/-- A disjunction under AND is not one operand: where its first test is true, the other operand of
the AND does not count. -/
theorem piece_of_or_under_and :
    ∃ out tokens, Clause.render .sqlite none (.many .and (.leaf (.raw "a = 1 OR b = 2" []))
        (.leaf (.null "name" false)) []) {} = .ok out ∧
      out.text.toList = expand String.toList (Wording.joined .and
        (Wording.joined .or [.mark "a = 1"] [.mark "b = 2"]) [.mark "\"name\" IS NULL"]) ++ [' '] ∧
      Token.scan (Wording.joined .and
        (Wording.joined .or [.mark "a = 1"] [.mark "b = 2"]) [.mark "\"name\" IS NULL"]) =
        some tokens ∧
      ∀ f, Reads .disjunction tokens f → ∃ v : String → Bool,
        f.eval .boolean v = true ∧ ((v "a = 1" || v "b = 2") && v "\"name\" IS NULL") = false := by
  have hread : Reads .disjunction
      [.atom "a = 1", .connective .or, .atom "b = 2", .connective .and, .atom "\"name\" IS NULL"]
      (.or (.atom "a = 1") (.and (.atom "b = 2") (.atom "\"name\" IS NULL"))) :=
    ((Reads.atom _).ofFactor Connective.or.level).connect .or
      (((Reads.atom _).ofFactor Connective.and.level).connect .and (.atom _))
  refine ⟨_, _, rfl, rfl, rfl, fun f hf => ⟨fun a => a = "a = 1", ?_⟩⟩
  rw [hf.unique hread]
  decide

end Relmap
