import Relmap.Proofs.Statement.Meaning
import Relmap.Proofs.Statement.Piece

/-!
# Pieces of SQL as operands

A condition writes a piece of SQL as it stands, between the parentheses, AND, OR and NOT of the
nodes around it (`Clause.wording`). The piece stays one operand if it holds together as closely as
the operator next to it asks (`Clause.Fits`): then the text is read as the condition
(`Clause.says_wording`). Where it does not, the text is read as another condition, and some values
of the tests tell them apart (`Clause.exposes_wording`).
-/

namespace Relmap

open Text
open Template (ofText)

/-! ### Conditions with pieces of SQL -/

/-- How the text of a test is read, given how pieces of SQL are. -/
def Leaf.reading (ρ : String → Piece) : Leaf → Reading
  | .raw sql _ => (ρ sql).toReading
  | _ => .test

/-- How the text of a leaf is read, given how pieces of SQL are. -/
def Clause.reading (ρ : String → Piece) : Clause → Reading
  | .leaf x => x.reading ρ
  | _ => .test

section

variable (ρ : String → Piece)

mutual

/-- What a condition says of the tests in it, where a piece of SQL is one operand. Tests have the
number of the leaf, from `k` on, and their number in it. -/
def Clause.nested (k : Nat) : Clause → Formula (Nat × Nat)
  | .leaf x => (x.reading ρ).formula.map (Prod.mk k)
  | .inQuery _ _ _ | .nonempty _ => .atom (k, 0)
  | .many op first second rest =>
    Clause.joinedNested (k + first.leaves.length + second.leaves.length) op
      (.connect op (Clause.nested k first) (Clause.nested (k + first.leaves.length) second)) rest
  | .not operand => .not (Clause.nested k operand)

/-- A formula and further operands of a connective. -/
def Clause.joinedNested (k : Nat) (op : Connective) (left : Formula (Nat × Nat)) :
    List Clause → Formula (Nat × Nat)
  | [] => left
  | c :: rest =>
    Clause.joinedNested (k + c.leaves.length) op (.connect op left (Clause.nested k c)) rest

end

mutual

/-- Every piece of SQL in a condition holds together as closely as its place asks, where the place
of the condition asks for a level. -/
def Clause.Fits (l : Level) : Clause → Prop
  | .leaf x => (x.reading ρ).Stands l
  | .inQuery _ _ _ | .nonempty _ => True
  | .many op first second rest =>
    Clause.Fits op.level first ∧ Clause.Fits op.level second ∧ Clause.AllFit op.level rest
  | .not operand => Clause.Fits .factor operand

/-- The same for conditions one after another. -/
def Clause.AllFit (l : Level) : List Clause → Prop
  | [] => True
  | c :: rest => Clause.Fits l c ∧ Clause.AllFit l rest

end

end

/-! ### Wordings -/

namespace Wording

variable {α : Type}

/-- A wording in parentheses. -/
def parens (s : List (Sign α)) : List (Sign α) := .char '(' :: s ++ [.char ')']

/-- A wording after NOT. -/
def not (s : List (Sign α)) : List (Sign α) := unmarked "NOT ".toList ++ s

/-- The wording of two operands of a connective. -/
def joined (op : Connective) (s t : List (Sign α)) : List (Sign α) :=
  s ++ unmarked (' ' :: op.separator.toList) ++ t

/-- The wording of an operand of a connective. -/
def operand (op : Connective) (kind : ClauseKind) (s : List (Sign α)) : List (Sign α) :=
  match kind with
  | .connective inner => if inner = op then s else parens (trimMarked s)
  | _ => s

/-- The wording of the negation of an operand. -/
def negation (kind : ClauseKind) (s : List (Sign α)) : List (Sign α) :=
  match kind with
  | .nonempty => not s
  | .connective _ => parens (not (parens (trimMarked s)))
  | .leaf | .not => parens (not (trimMarked s))

theorem unstyle_parens (s : List (Sign α)) : unstyle (parens s) = parens (unstyle s) := by
  have hleft : unstyle (unmarked ['('] : List (Sign α)) = unmarked ['('] :=
    unstyle_unmarked (by decide)
  have hright : unstyle (unmarked [')'] : List (Sign α)) = unmarked [')'] :=
    unstyle_unmarked (by decide)
  have hall : unstyle (unmarked ['('] ++ s ++ unmarked [')']) =
      unmarked ['('] ++ unstyle s ++ unmarked [')'] := by
    rw [unstyle_append, unstyle_append, hleft, hright]
  exact hall

theorem unstyle_not (s : List (Sign α)) : unstyle (not s) = not (unstyle s) := by
  rw [not, unstyle_append, unstyle_unmarked (by decide), not]

theorem unstyle_joined (op : Connective) (s t : List (Sign α)) :
    unstyle (joined op s t) = joined op (unstyle s) (unstyle t) := by
  have hword : (' ' :: op.separator.toList).map unstyled = ' ' :: op.separator.toList := by
    cases op <;> decide
  rw [joined, unstyle_append, unstyle_append, unstyle_unmarked hword, joined]

end Wording

section

variable (ρ : String → Piece)

mutual

/-- The text of a condition, less the blank at its end, with the tests in it as single signs. -/
def Clause.wording (k : Nat) : Clause → List (Sign (Nat × Nat))
  | .leaf x => (x.reading ρ).signs.map (Sign.map (Prod.mk k))
  | .inQuery _ _ _ | .nonempty _ => [.mark (k, 0)]
  | .many op first second rest =>
    Clause.joinedWording (k + first.leaves.length + second.leaves.length) op
      (Wording.joined op (Wording.operand op first.kind (Clause.wording k first))
        (Wording.operand op second.kind (Clause.wording (k + first.leaves.length) second))) rest
  | .not operand => Wording.negation operand.kind (Clause.wording k operand)

/-- A wording and the ones of further operands of a connective. -/
def Clause.joinedWording (k : Nat) (op : Connective) (left : List (Sign (Nat × Nat))) :
    List Clause → List (Sign (Nat × Nat))
  | [] => left
  | c :: rest =>
    Clause.joinedWording (k + c.leaves.length) op
      (Wording.joined op left (Wording.operand op c.kind (Clause.wording k c))) rest

end

end

/-! ### What fits is read as it is meant -/

/-- The level of what a condition writes, where its place asks for a level. -/
def ClauseKind.levelAt (l : Level) : ClauseKind → Level
  | .connective op => op.level
  | .leaf | .not | .nonempty => l

section

variable {α : Type} {s t : List (Sign α)} {f g : Formula α} {l : Level}

theorem Says.trimmed (h : Says l (unstyle s) g) : Says l (unstyle (trimMarked s)) g := by
  obtain ⟨ts, f, hscan, hread, hsame⟩ := h
  refine ⟨ts, f, ?_, hread, hsame⟩
  rw [← trimMarked_unstyle]
  exact Token.scan_trimMarked hscan

theorem Says.wordingParens (h : Says .disjunction (unstyle s) g) :
    Says .factor (unstyle (Wording.parens s)) g := by
  rw [Wording.unstyle_parens]
  exact h.paren

theorem Says.wordingNot (h : Says .factor (unstyle s) g) :
    Says .factor (unstyle (Wording.not s)) g.not := by
  rw [Wording.unstyle_not]
  exact h.not

theorem Says.wordingJoined (op : Connective) (hs : Says op.level (unstyle s) f)
    (ht : Says op.level (unstyle t) g) :
    Says op.level (unstyle (Wording.joined op s t)) (.connect op f g) := by
  rw [Wording.unstyle_joined]
  exact hs.connect op ht

theorem Says.wordingOperand (op : Connective) (kind : ClauseKind)
    (h : Says (kind.levelAt op.level) (unstyle s) g) :
    Says op.level (unstyle (Wording.operand op kind s)) g := by
  cases kind with
  | connective inner =>
    by_cases hop : inner = op
    · subst hop
      simp only [Wording.operand, if_true]
      exact h
    · simp only [Wording.operand, hop, if_false]
      exact h.trimmed.toDisjunction.wordingParens.ofFactor op.level
  | leaf => exact h
  | not => exact h
  | nonempty => exact h

theorem Says.wordingNegation (kind : ClauseKind) (h : Says (kind.levelAt .factor) (unstyle s) g) :
    Says .factor (unstyle (Wording.negation kind s)) g.not := by
  cases kind with
  | connective inner =>
    exact h.trimmed.toDisjunction.wordingParens.wordingNot.toDisjunction.wordingParens
  | leaf => exact h.trimmed.wordingNot.toDisjunction.wordingParens
  | not => exact h.trimmed.wordingNot.toDisjunction.wordingParens
  | nonempty => exact h.wordingNot

/-- A reading at a place, where its tests have the number of the place before their own. -/
theorem Reading.scan_at (r : Reading) (k : Nat) :
    Token.scan (unstyle (r.signs.map (Sign.map (Prod.mk k)))) =
      some (r.tokens.map (Token.map (Prod.mk k))) := by
  rw [unstyle_map]
  exact Token.scan_map _ r.scan_signs

end

section

variable {ρ : String → Piece}

mutual

/-- **The wording of a condition says what the condition says**, if every piece of SQL in it fits. -/
theorem Clause.says_wording :
    ∀ (c : Clause) (k : Nat) (l : Level), c.Fits ρ l →
      Says (c.kind.levelAt l) (unstyle (c.wording ρ k)) (c.nested ρ k)
  | .leaf x, k, l, h => ⟨_, _, (x.reading ρ).scan_at k, Reads.map _ h, .refl _⟩
  | .inQuery _ _ _, k, l, _ => (Says.atom (k, 0)).ofFactor l
  | .many op first second rest, k, _, h => by
    obtain ⟨hfirst, hsecond, hrest⟩ := h
    have hfirst := (Clause.says_wording first k _ hfirst).wordingOperand op
    have hsecond :=
      (Clause.says_wording second (k + first.leaves.length) _ hsecond).wordingOperand op
    exact Clause.says_joinedWording op rest _ hrest (hfirst.wordingJoined op hsecond)
  | .not operand, k, l, h =>
    (Clause.says_wording operand k .factor h).wordingNegation.ofFactor l
  | .nonempty _, k, l, _ => (Says.atom (k, 0)).ofFactor l

theorem Clause.says_joinedWording (op : Connective) :
    ∀ (cs : List Clause) (k : Nat) {left : List (Sign (Nat × Nat))} {g : Formula (Nat × Nat)},
      Clause.AllFit ρ op.level cs → Says op.level (unstyle left) g →
      Says op.level (unstyle (Clause.joinedWording ρ k op left cs)) (Clause.joinedNested ρ k op g cs)
  | [], _, _, _, _, hleft => hleft
  | c :: rest, k, _, _, h, hleft =>
    Clause.says_joinedWording op rest _ h.2
      (hleft.wordingJoined op ((Clause.says_wording c k _ h.1).wordingOperand op))

end

end

/-! ### What does not fit is exposed -/

/-- The text of a condition is read in groups, and where the condition does not fit under a
connective, it goes astray there. -/
def Exposes {α : Type} (s : List (Sign α)) (f : Formula α) (fits : Connective → Prop) : Prop :=
  ∃ ts gs, Token.scan (unstyle s) = some ts ∧ Grouped f ts gs ∧ ∀ op, ¬fits op → Astray op f gs

/-- The text of a condition is read as a factor, which is misread if the condition does not fit. -/
def ExposesAsFactor {α : Type} (s : List (Sign α)) (f : Formula α) (fits : Prop) : Prop :=
  ∃ ts g, Token.scan (unstyle s) = some ts ∧ Reads .factor ts g ∧ Grouped f ts [g] ∧
    (¬fits → Misread f [g])

section

variable {α : Type} {s t : List (Sign α)} {f g : Formula α} {fits fits' : Connective → Prop}
  {fit : Prop}

theorem exposesAsFactor_atom (a : α) : ExposesAsFactor [.mark a] (.atom a) True :=
  ⟨[.atom a], .atom a, rfl, .atom a,
    ⟨.one ((Reads.atom a).ofFactor _), rfl, fun b => ⟨fun _ => b, rfl, by simp [Formula.eval]⟩⟩,
    fun h => absurd trivial h⟩

theorem Exposes.imp (h : Exposes s f fits) (himp : ∀ op, fits op → fits' op) :
    Exposes s f fits' := by
  obtain ⟨ts, gs, hscan, hgrouped, hastray⟩ := h
  exact ⟨ts, gs, hscan, hgrouped, fun op hno => hastray op (mt (himp op) hno)⟩

theorem ExposesAsFactor.toExposes (h : ExposesAsFactor s f fit) : Exposes s f fun _ => fit := by
  obtain ⟨ts, g, hscan, -, hgrouped, hmis⟩ := h
  exact ⟨ts, [g], hscan, hgrouped, fun op hno => .inl (hmis hno)⟩

theorem ExposesAsFactor.trimmed (h : ExposesAsFactor s f fit) :
    ExposesAsFactor (trimMarked s) f fit := by
  obtain ⟨ts, g, hscan, hrest⟩ := h
  refine ⟨ts, g, ?_, hrest⟩
  rw [← trimMarked_unstyle]
  exact Token.scan_trimMarked hscan

theorem ExposesAsFactor.not (h : ExposesAsFactor s f fit) :
    ExposesAsFactor (Wording.not s) f.not fit := by
  obtain ⟨ts, g, hscan, hread, hgrouped, hmis⟩ := h
  obtain ⟨hnot, hmisnot⟩ := hgrouped.not hread
  refine ⟨.not :: ts, g.not, ?_, hread.not, hnot, fun hno => hmisnot (hmis hno)⟩
  rw [Wording.unstyle_not]
  exact Token.scan_not hscan

theorem Exposes.trimmed (h : Exposes s f fits) : Exposes (trimMarked s) f fits := by
  obtain ⟨ts, gs, hscan, hrest⟩ := h
  refine ⟨ts, gs, ?_, hrest⟩
  rw [← trimMarked_unstyle]
  exact Token.scan_trimMarked hscan

/-- In parentheses a condition fits if it fits under OR. -/
theorem Exposes.parens (h : Exposes s f fits) :
    ExposesAsFactor (Wording.parens s) f (fits .or) := by
  obtain ⟨ts, gs, hscan, hgrouped, hastray⟩ := h
  obtain ⟨g, hread, henclosed, hmis⟩ := hgrouped.enclosed
  refine ⟨_, g, ?_, hread, henclosed, fun hno => hmis (hastray .or hno).misread⟩
  rw [Wording.unstyle_parens]
  exact Token.scan_paren hscan

theorem Exposes.joined (op : Connective) (h : Exposes s f fits) (h' : Exposes t g fits')
    (apart : f.atoms.Disjoint g.atoms) :
    Exposes (Wording.joined op s t) (.connect op f g) fun _ => fits op ∧ fits' op := by
  obtain ⟨ts, gs, hscan, hgrouped, hastray⟩ := h
  obtain ⟨ts', gs', hscan', hgrouped', hastray'⟩ := h'
  obtain ⟨hs, hboth, hmis⟩ := hgrouped.connect op hgrouped' apart
  refine ⟨_, hs, ?_, hboth, fun _ hno => .inl (hmis ?_)⟩
  · rw [Wording.unstyle_joined]
    exact Token.scan_connect op hscan hscan'
  · exact (not_and_or.mp hno).imp (hastray op) (hastray' op)

end

/-! ### The tests of a condition -/

section

variable {ρ : String → Piece}

/-- The tests of conditions, leaf by leaf from number `k` on. -/
def Clause.testMarks (ρ : String → Piece) : Nat → List Clause → List (Nat × Nat)
  | _, [] => []
  | k, c :: rest =>
    (List.range (c.reading ρ).size).map (Prod.mk k) ++ Clause.testMarks ρ (k + 1) rest

theorem Clause.testMarks_append (k : Nat) (cs ds : List Clause) :
    Clause.testMarks ρ k (cs ++ ds) =
      Clause.testMarks ρ k cs ++ Clause.testMarks ρ (k + cs.length) ds := by
  induction cs generalizing k with
  | nil => rfl
  | cons c rest ih =>
    rw [List.cons_append, testMarks, testMarks, ih, List.append_assoc, List.length_cons,
      Nat.add_assoc, Nat.add_comm 1]

theorem Clause.bounds_of_mem_testMarks {k : Nat} {cs : List Clause} {a : Nat × Nat}
    (h : a ∈ Clause.testMarks ρ k cs) : k ≤ a.1 ∧ a.1 < k + cs.length := by
  induction cs generalizing k with
  | nil => exact absurd h List.not_mem_nil
  | cons c rest ih =>
    rw [List.length_cons]
    rcases List.mem_append.mp h with h | h
    · obtain ⟨j, -, rfl⟩ := List.mem_map.mp h
      show k ≤ k ∧ k < k + (rest.length + 1)
      omega
    · have hrest := ih h
      omega

mutual

theorem Clause.atoms_nested :
    ∀ (c : Clause) (k : Nat), (c.nested ρ k).atoms = Clause.testMarks ρ k c.leaves
  | .leaf x, k => by
    have hread : (x.reading ρ).formula.atoms = List.range (x.reading ρ).size := by
      rw [(x.reading ρ).reads.atoms_eq, Token.atoms_scan (x.reading ρ).scan_signs, marks_unstyle,
        (x.reading ρ).marks_signs]
    rw [Clause.nested, Formula.atoms_map, hread]
    exact (List.append_nil _).symm
  | .inQuery _ _ _, k => rfl
  | .many op first second rest, k => by
    rw [Clause.nested, Clause.atoms_joinedNested op rest, Formula.atoms_connect,
      Clause.atoms_nested first, Clause.atoms_nested second, Clause.leaves,
      Clause.testMarks_append, Clause.testMarks_append, List.length_append, Nat.add_assoc]
  | .not operand, k => Clause.atoms_nested operand k
  | .nonempty _, k => rfl

theorem Clause.atoms_joinedNested (op : Connective) :
    ∀ (cs : List Clause) (k : Nat) (left : Formula (Nat × Nat)),
      (Clause.joinedNested ρ k op left cs).atoms =
        left.atoms ++ Clause.testMarks ρ k (Clause.allLeaves cs)
  | [], _, left => (List.append_nil _).symm
  | c :: rest, k, left => by
    rw [Clause.joinedNested, Clause.atoms_joinedNested op rest, Formula.atoms_connect,
      Clause.atoms_nested c, Clause.allLeaves, Clause.testMarks_append, List.append_assoc]

end

theorem Clause.lt_of_mem_atoms_nested {c : Clause} {k : Nat} {a : Nat × Nat}
    (h : a ∈ (c.nested ρ k).atoms) : a.1 < k + c.leaves.length := by
  rw [Clause.atoms_nested] at h
  exact (Clause.bounds_of_mem_testMarks h).2

/-- The tests of leaves before a condition are none of its own. -/
theorem Clause.disjoint_nested {g : Formula (Nat × Nat)} {k : Nat} (c : Clause)
    (h : ∀ a ∈ g.atoms, a.1 < k) : g.atoms.Disjoint (c.nested ρ k).atoms := by
  intro a ha ha'
  rw [Clause.atoms_nested] at ha'
  exact Nat.not_le_of_lt (h a ha) (Clause.bounds_of_mem_testMarks ha').1

/-! ### The text of a condition exposes what does not fit -/

theorem Reading.reads_at_iff (r : Reading) (k : Nat) {l : Level} :
    Reads l (r.tokens.map (Token.map (Prod.mk k))) (r.formula.map (Prod.mk k)) ↔ r.Stands l :=
  have h : Function.LeftInverse Prod.snd (Prod.mk k : Nat → Nat × Nat) := fun _ => rfl
  Reads.map_iff h

theorem Reading.nodup_at (r : Reading) (k : Nat) :
    (Token.atoms (r.tokens.map (Token.map (Prod.mk k)))).Nodup := by
  rw [Token.atoms_scan (r.scan_at k), marks_unstyle, marks_map, r.marks_signs]
  exact List.nodup_range.map fun i j h => (Prod.mk.inj h).2

theorem Reading.exposes (r : Reading) (k : Nat) :
    Exposes (r.signs.map (Sign.map (Prod.mk k))) (r.formula.map (Prod.mk k))
      fun op => r.Stands op.level := by
  obtain ⟨gs, hgrouped, hastray⟩ := Grouped.of_reads (r.reads.map (Prod.mk k)) (r.nodup_at k)
  exact ⟨_, gs, r.scan_at k, hgrouped, fun op hno => hastray op (mt (r.reads_at_iff k).mp hno)⟩

theorem Reading.exposes_not (r : Reading) (k : Nat) :
    ExposesAsFactor (Wording.parens (Wording.not (trimMarked (r.signs.map (Sign.map (Prod.mk k))))))
      (r.formula.map (Prod.mk k)).not (r.Stands .factor) := by
  obtain ⟨g, hread, hgrouped, hmis⟩ := Grouped.negated (r.reads.map (Prod.mk k)) (r.nodup_at k)
  refine ⟨_, g, ?_, hread, hgrouped, fun hno => hmis (mt (r.reads_at_iff k).mp hno)⟩
  rw [Wording.unstyle_parens, Wording.unstyle_not, ← trimMarked_unstyle]
  exact Token.scan_paren (Token.scan_not (Token.scan_trimMarked (r.scan_at k)))

/-- An operand fits between parentheses as well as without. -/
theorem Clause.exposes_operand (op : Connective) (c : Clause) {s : List (Sign (Nat × Nat))}
    {f : Formula (Nat × Nat)} (h : Exposes s f fun op => c.Fits ρ op.level) :
    Exposes (Wording.operand op c.kind s) f fun op => c.Fits ρ op.level := by
  cases c with
  | many inner first second rest =>
    by_cases hop : inner = op
    · subst hop
      simp only [Clause.kind, Wording.operand, if_true]
      exact h
    · simp only [Clause.kind, Wording.operand, hop, if_false]
      exact h.trimmed.parens.toExposes
  | leaf x => exact h
  | inQuery column query negated => exact h
  | not operand => exact h
  | nonempty query => exact h

mutual

/-- **The text of a condition exposes every piece of SQL that does not fit**, with and without a
negation around the condition. -/
theorem Clause.exposes_wording :
    ∀ (c : Clause) (k : Nat), Exposes (c.wording ρ k) (c.nested ρ k) (fun op => c.Fits ρ op.level) ∧
      ExposesAsFactor (Wording.negation c.kind (c.wording ρ k)) (c.nested ρ k).not
        (c.Fits ρ .factor)
  | .leaf x, k => ⟨(x.reading ρ).exposes k, (x.reading ρ).exposes_not k⟩
  | .inQuery _ _ _, k => by
    have hatom := exposesAsFactor_atom (k, 0)
    exact ⟨hatom.toExposes, hatom.trimmed.not.toExposes.parens⟩
  | .many op first second rest, k => by
    have hfirst := Clause.exposes_operand op first (Clause.exposes_wording first k).1
    have hsecond := Clause.exposes_operand op second
      (Clause.exposes_wording second (k + first.leaves.length)).1
    have hjoined := hfirst.joined op hsecond
      (second.disjoint_nested fun a => Clause.lt_of_mem_atoms_nested)
    have hall := Clause.exposes_joinedWording op rest
      (k + first.leaves.length + second.leaves.length) hjoined fun a ha => by
        rw [Formula.atoms_connect] at ha
        rcases List.mem_append.mp ha with ha | ha
        · have := Clause.lt_of_mem_atoms_nested ha
          omega
        · exact Clause.lt_of_mem_atoms_nested ha
    have hmany : Exposes ((Clause.many op first second rest).wording ρ k)
        ((Clause.many op first second rest).nested ρ k)
        fun op' => (Clause.many op first second rest).Fits ρ op'.level :=
      hall.imp fun _ h => and_assoc.mp h
    exact ⟨hmany, hmany.trimmed.parens.not.toExposes.parens⟩
  | .not operand, k => by
    have hoperand := (Clause.exposes_wording operand k).2
    exact ⟨hoperand.toExposes, hoperand.trimmed.not.toExposes.parens⟩
  | .nonempty _, k => by
    have hatom := exposesAsFactor_atom (k, 0)
    exact ⟨hatom.toExposes, hatom.not⟩

theorem Clause.exposes_joinedWording (op : Connective) :
    ∀ (cs : List Clause) (k : Nat) {left : List (Sign (Nat × Nat))} {g : Formula (Nat × Nat)}
      {fit : Prop}, Exposes left g (fun _ => fit) → (∀ a ∈ g.atoms, a.1 < k) →
      Exposes (Clause.joinedWording ρ k op left cs) (Clause.joinedNested ρ k op g cs)
        fun _ => fit ∧ Clause.AllFit ρ op.level cs
  | [], _, _, _, _, hleft, _ => hleft.imp fun _ h => ⟨h, trivial⟩
  | c :: rest, k, left, g, _, hleft, hbound => by
    have hc := Clause.exposes_operand op c (Clause.exposes_wording c k).1
    have hjoined := hleft.joined op hc (c.disjoint_nested hbound)
    have hall := Clause.exposes_joinedWording op rest (k + c.leaves.length) hjoined fun a ha => by
      rw [Formula.atoms_connect] at ha
      rcases List.mem_append.mp ha with ha | ha
      · have := hbound a ha
        omega
      · exact Clause.lt_of_mem_atoms_nested ha
    exact hall.imp fun _ h => and_assoc.mp h

end

end

end Relmap
