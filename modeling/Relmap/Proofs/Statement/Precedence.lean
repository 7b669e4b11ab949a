import Relmap.Statement.Render

/-!
# Reading conditions back

How SQL reads the text of a condition whose tests stand as single signs: it is cut into tokens at
blanks and parentheses (`Token.scan`), and the tokens are read as a formula in which a negation
binds closer than AND and AND closer than OR (`Reads`). There is at most one such formula
(`Reads.unique`).

What a formula says is its value under every logic whose connectives are associative. The one with
two truth values is such a logic (`Logic.boolean`), and so is the one of SQL with a third value for
what is not known (`Logic.kleene`).
-/

namespace Relmap

open Text

/-! ### Formulas -/

/-- Truth values and the connectives on them. -/
structure Logic (τ : Type) where
  and : τ → τ → τ
  or : τ → τ → τ
  not : τ → τ
  and_assoc : ∀ a b c, and (and a b) c = and a (and b c)
  or_assoc : ∀ a b c, or (or a b) c = or a (or b c)

/-- The logic of two truth values. -/
def Logic.boolean : Logic Bool := ⟨Bool.and, Bool.or, Bool.not, Bool.and_assoc, Bool.or_assoc⟩

/-- A truth value, where it may be that neither is known. -/
inductive Truth
  | no
  | unknown
  | yes
  deriving DecidableEq, Repr

/-- The lesser of two truth values, where what is not known stands between the others. -/
def Truth.min : Truth → Truth → Truth
  | .no, _ | _, .no => .no
  | .unknown, _ | _, .unknown => .unknown
  | .yes, .yes => .yes

/-- The greater of two truth values. -/
def Truth.max : Truth → Truth → Truth
  | .yes, _ | _, .yes => .yes
  | .unknown, _ | _, .unknown => .unknown
  | .no, .no => .no

/-- The opposite of a truth value. -/
def Truth.opposite : Truth → Truth
  | .no => .yes
  | .unknown => .unknown
  | .yes => .no

/-- The logic of SQL. -/
def Logic.kleene : Logic Truth where
  and := Truth.min
  or := Truth.max
  not := Truth.opposite
  and_assoc a b c := by cases a <;> cases b <;> cases c <;> rfl
  or_assoc a b c := by cases a <;> cases b <;> cases c <;> rfl

/-- A formula over atoms. -/
inductive Formula (α : Type)
  | atom (a : α)
  | and (f g : Formula α)
  | or (f g : Formula α)
  | not (f : Formula α)

namespace Formula

variable {α τ : Type}

/-- The value of a formula, given the values of its atoms. -/
def eval (L : Logic τ) (v : α → τ) : Formula α → τ
  | .atom a => v a
  | .and f g => L.and (eval L v f) (eval L v g)
  | .or f g => L.or (eval L v f) (eval L v g)
  | .not f => L.not (eval L v f)

/-- The formulas have the same value under every logic, whatever the values of the atoms. -/
def Same (f g : Formula α) : Prop := ∀ (τ : Type) (L : Logic τ) (v : α → τ), f.eval L v = g.eval L v

/-- Two formulas under a connective. -/
def connect : Connective → Formula α → Formula α → Formula α
  | .and => .and
  | .or => .or

theorem Same.refl (f : Formula α) : f.Same f := fun _ _ _ => rfl

theorem Same.trans {f g h : Formula α} (hfg : f.Same g) (hgh : g.Same h) : f.Same h := fun τ L v =>
  (hfg τ L v).trans (hgh τ L v)

theorem Same.not {f g : Formula α} (h : f.Same g) : f.not.Same g.not :=
  fun τ L v => congrArg L.not (h τ L v)

theorem Same.connect {f f' g g' : Formula α} (op : Connective) (hf : f.Same f') (hg : g.Same g') :
    (connect op f g).Same (connect op f' g') := fun τ L v => by
  have hf := hf τ L v
  have hg := hg τ L v
  cases op with
  | and => simp only [Formula.connect, eval, hf, hg]
  | or => simp only [Formula.connect, eval, hf, hg]

theorem same_connect_assoc (op : Connective) (f g h : Formula α) :
    (connect op (connect op f g) h).Same (connect op f (connect op g h)) := fun _ L _ => by
  cases op with
  | and => exact L.and_assoc _ _ _
  | or => exact L.or_assoc _ _ _

end Formula

/-! ### Tokens -/

/-- A token of a condition. -/
inductive Token (α : Type)
  | atom (a : α)
  | left
  | right
  | connective (op : Connective)
  | not
  deriving DecidableEq, Repr

namespace Token

variable {α : Type}

/-- The tokens of a word, which is what stands between blanks and parentheses: none if the word is
empty, and else one, if it is an atom or a word that SQL knows. -/
def ofWord : List (Sign α) → Option (List (Token α))
  | [] => some []
  | [.mark a] => some [.atom a]
  | [.char 'A', .char 'N', .char 'D'] => some [.connective .and]
  | [.char 'O', .char 'R'] => some [.connective .or]
  | [.char 'N', .char 'O', .char 'T'] => some [.not]
  | _ => none

/-- The tokens of a sign that ends a word. -/
def ofBreak? : Sign α → Option (List (Token α))
  | .char ' ' => some []
  | .char '(' => some [.left]
  | .char ')' => some [.right]
  | _ => none

/-- The tokens of a text after the start of a word. -/
def scanFrom (word : List (Sign α)) : List (Sign α) → Option (List (Token α))
  | [] => ofWord word
  | x :: r =>
    match ofBreak? x with
    | some b => do return (← ofWord word) ++ b ++ (← scanFrom [] r)
    | none => scanFrom (word ++ [x]) r

/-- The tokens of a text, if every word of it can be read. -/
def scan (s : List (Sign α)) : Option (List (Token α)) := scanFrom [] s

theorem scanFrom_cons_none {x : Sign α} (hx : ofBreak? x = none) (word r : List (Sign α)) :
    scanFrom word (x :: r) = scanFrom (word ++ [x]) r := by
  simp [scanFrom, hx]

/-- What ends a word cuts the text. -/
theorem scanFrom_cons_some {x : Sign α} {b ts : List (Token α)} {word r : List (Sign α)}
    (hx : ofBreak? x = some b) (h : scanFrom word (x :: r) = some ts) :
    ∃ w us, ofWord word = some w ∧ scanFrom [] r = some us ∧ ts = w ++ b ++ us := by
  obtain ⟨w, hw, us, hus, rfl⟩ :
      ∃ w, ofWord word = some w ∧ ∃ us, scanFrom [] r = some us ∧ w ++ b ++ us = ts := by
    simpa [scanFrom, hx, Option.bind_eq_some_iff] using h
  exact ⟨w, us, hw, hus, rfl⟩

theorem scanFrom_append {x : Sign α} {b ts us : List (Token α)} {s r word : List (Sign α)}
    (hx : ofBreak? x = some b) (hs : scanFrom word s = some ts) (hr : scan r = some us) :
    scanFrom word (s ++ x :: r) = some (ts ++ b ++ us) := by
  have hr' : scanFrom [] r = some us := hr
  induction s generalizing word ts with
  | nil =>
    have hw : ofWord word = some ts := hs
    simp [scanFrom, hx, hw, hr']
  | cons y s ih =>
    cases hy : ofBreak? y with
    | none =>
      rw [scanFrom_cons_none hy] at hs
      rw [List.cons_append, scanFrom_cons_none hy]
      exact ih hs
    | some c =>
      obtain ⟨w, v, hw, hv, rfl⟩ := scanFrom_cons_some hy hs
      simp [scanFrom, hy, hw, ih hv]

/-- Texts on both sides of the end of a word are cut by themselves. -/
theorem scan_append {x : Sign α} {b ts us : List (Token α)} {s r : List (Sign α)}
    (hx : ofBreak? x = some b) (hs : scan s = some ts) (hr : scan r = some us) :
    scan (s ++ x :: r) = some (ts ++ b ++ us) := scanFrom_append hx hs hr

theorem scan_paren {s : List (Sign α)} {ts : List (Token α)} (hs : scan s = some ts) :
    scan (.char '(' :: s ++ [.char ')']) = some (.left :: ts ++ [.right]) := by
  have hclosed : scan (s ++ [.char ')']) = some (ts ++ [.right] ++ []) := scan_append rfl hs rfl
  rw [List.append_nil] at hclosed
  have hopened : scan ([] ++ .char '(' :: (s ++ [.char ')'])) =
      some ([] ++ [.left] ++ (ts ++ [.right])) := scan_append rfl rfl hclosed
  exact hopened

theorem scan_not {s : List (Sign α)} {ts : List (Token α)} (hs : scan s = some ts) :
    scan (unmarked "NOT ".toList ++ s) = some (.not :: ts) :=
  scan_append (s := unmarked "NOT".toList) (x := .char ' ') rfl rfl hs

/-- A connective as it stands between two operands. -/
theorem scan_connect (op : Connective) {s t : List (Sign α)} {ts us : List (Token α)}
    (hs : scan s = some ts) (ht : scan t = some us) :
    scan (s ++ unmarked (' ' :: op.separator.toList) ++ t) =
      some (ts ++ .connective op :: us) := by
  have hword : scan (unmarked op.separator.toList ++ t) = some (.connective op :: us) := by
    cases op with
    | and => exact scan_append (s := unmarked "AND".toList) (x := .char ' ') rfl rfl ht
    | or => exact scan_append (s := unmarked "OR".toList) (x := .char ' ') rfl rfl ht
  have hall := scan_append (x := .char ' ') rfl hs hword
  rw [List.append_assoc]
  simpa [unmarked] using hall

end Token

/-! ### The grammar -/

/-- How closely a part of a condition holds together. -/
inductive Level
  | factor
  | conjunction
  | disjunction
  deriving DecidableEq, Repr

/-- The level of what a connective makes. -/
def Connective.level : Connective → Level
  | .and => .conjunction
  | .or => .disjunction

/-- The level of the last operand of a connective: a negation holds closer together than AND, and
AND closer than OR. -/
def Connective.operands : Connective → Level
  | .and => .factor
  | .or => .conjunction

theorem Connective.eq_of_level_eq {op op' : Connective} (h : op.level = op'.level) : op = op' := by
  cases op <;> cases op' <;> first | rfl | cases h

/-- Tokens read as a formula. -/
inductive Reads {α : Type} : Level → List (Token α) → Formula α → Prop
  | atom (a : α) : Reads .factor [.atom a] (.atom a)
  | not {s f} (h : Reads .factor s f) : Reads .factor (.not :: s) (.not f)
  | paren {s f} (h : Reads .disjunction s f) : Reads .factor (.left :: s ++ [.right]) f
  | operand {s f} (op : Connective) (h : Reads op.operands s f) : Reads op.level s f
  | connect {s t f g} (op : Connective) (hs : Reads op.level s f) (ht : Reads op.operands t g) :
    Reads op.level (s ++ .connective op :: t) (.connect op f g)

namespace Reads

variable {α : Type} {s t : List (Token α)} {f g : Formula α}

/-- What holds together closely can stand at every level. -/
theorem ofFactor (h : Reads .factor s f) : ∀ l, Reads l s f
  | .factor => h
  | .conjunction => .operand .and h
  | .disjunction => .operand .or (.operand .and h)

theorem toDisjunction {l : Level} (h : Reads l s f) : Reads .disjunction s f := by
  cases l with
  | factor => exact h.ofFactor _
  | conjunction => exact .operand .or h
  | disjunction => exact h

/-- Chains of operands one after another are read as one chain, which groups them to the left. -/
theorem append (op : Connective) (hs : Reads op.level s f) (ht : Reads op.level t g) :
    ∃ k, Reads op.level (s ++ .connective op :: t) k ∧ k.Same (.connect op f g) := by
  generalize hl : op.level = l at ht
  induction ht with
  | operand op' h =>
    cases Connective.eq_of_level_eq hl
    exact ⟨_, hs.connect op h, Formula.Same.refl _⟩
  | @connect s' t' f' g' op' hs' ht' ih =>
    cases Connective.eq_of_level_eq hl
    obtain ⟨k, hk, hsame⟩ := ih rfl
    refine ⟨.connect op k g', by simpa using hk.connect op ht', ?_⟩
    have hleft : (Formula.connect op k g').Same (.connect op (.connect op f f') g') :=
      hsame.connect op (Formula.Same.refl g')
    exact hleft.trans (Formula.same_connect_assoc op f f' g')
  | atom | not | paren => cases op <;> cases hl

end Reads

/-! ### Only one reading -/

/-- What was read since a parenthesis opened: the disjunction before the last OR, the conjunction
before the last AND, and how many negations wait. -/
structure Frame (α : Type) where
  disjunction : Option (Formula α) := none
  conjunction : Option (Formula α) := none
  negations : Nat := 0

/-- A reader of tokens, with the parentheses that are open around the place where it is. -/
inductive Reader (α : Type)
  /-- An operand has to come. -/
  | before (here : Frame α) (around : List (Frame α))
  /-- An operand was read to its end, and with it a conjunction. -/
  | after (disjunction : Option (Formula α)) (conjunction : Formula α) (around : List (Frame α))

namespace Reader

variable {α : Type}

/-- A formula after what may stand to the left of it. -/
def join (op : Connective) : Option (Formula α) → Formula α → Formula α
  | none, g => g
  | some f, g => .connect op f g

/-- A formula after so many negations. -/
def negate : Nat → Formula α → Formula α
  | 0, f => f
  | n + 1, f => negate n (.not f)

/-- The reader after an operand. -/
def take (here : Frame α) (around : List (Frame α)) (f : Formula α) : Reader α :=
  .after here.disjunction (join .and here.conjunction (negate here.negations f)) around

/-- The reader after a token, if the token can stand here. -/
def step : Reader α → Token α → Option (Reader α)
  | .before here around, .atom a => some (take here around (.atom a))
  | .before here around, .not => some (.before { here with negations := here.negations + 1 } around)
  | .before here around, .left => some (.before {} (here :: around))
  | .after d c around, .connective .and =>
    some (.before { disjunction := d, conjunction := some c } around)
  | .after d c around, .connective .or =>
    some (.before { disjunction := some (join .or d c) } around)
  | .after d c (here :: around), .right => some (take here around (join .or d c))
  | _, _ => none

/-- The reader after tokens. -/
def run (r : Reader α) (s : List (Token α)) : Option (Reader α) := s.foldlM step r

theorem run_cons (r : Reader α) (x : Token α) (s : List (Token α)) :
    r.run (x :: s) = r.step x >>= fun r => r.run s := List.foldlM_cons

theorem run_append (r : Reader α) (s t : List (Token α)) :
    r.run (s ++ t) = r.run s >>= fun r => r.run t := List.foldlM_append

/-- The reader takes tokens as a formula, from where tokens of this level may start. -/
def Takes (s : List (Token α)) (f : Formula α) : Level → Prop
  | .factor => ∀ here around, run (.before here around) s = some (take here around f)
  | .conjunction =>
    ∀ d around, run (.before { disjunction := d } around) s = some (.after d f around)
  | .disjunction =>
    ∀ around, ∃ d c, run (.before {} around) s = some (.after d c around) ∧ join .or d c = f

/-- The reader takes tokens as the formula that they are read as. -/
theorem takes_of_reads {l : Level} {s : List (Token α)} {f : Formula α} (h : Reads l s f) :
    Takes s f l := by
  induction h with
  | atom a => exact fun here around => rfl
  | not h ih =>
    intro here around
    rw [run_cons]
    exact ih { here with negations := here.negations + 1 } around
  | paren h ih =>
    intro here around
    obtain ⟨d, c, hrun, rfl⟩ := ih (here :: around)
    change run (.before {} (here :: around)) (_ ++ [_]) = _
    rw [run_append, hrun]
    rfl
  | operand op h ih =>
    cases op with
    | and => exact fun d around => ih { disjunction := d } around
    | or => exact fun around => ⟨none, _, ih none around, rfl⟩
  | @connect s t f g op hs ht ihs iht =>
    cases op with
    | and =>
      intro d around
      rw [run_append, ihs d around]
      exact iht { disjunction := d, conjunction := some f } around
    | or =>
      intro around
      obtain ⟨d, c, hrun, rfl⟩ := ihs around
      refine ⟨some (join .or d c), g, ?_, rfl⟩
      rw [run_append, hrun]
      exact iht (some (join .or d c)) around

end Reader

/-- **Tokens are read as one formula at most.** -/
theorem Reads.unique {α : Type} {s : List (Token α)} {f g : Formula α} (hf : Reads .disjunction s f)
    (hg : Reads .disjunction s g) : f = g := by
  obtain ⟨d, c, hrun, rfl⟩ := Reader.takes_of_reads hf []
  obtain ⟨d', c', hrun', rfl⟩ := Reader.takes_of_reads hg []
  cases hrun.symm.trans hrun'
  rfl

/-! ### What texts say -/

/-- A text is read as a formula that says the same as `g`. -/
def Says {α : Type} (l : Level) (s : List (Sign α)) (g : Formula α) : Prop :=
  ∃ ts f, Token.scan s = some ts ∧ Reads l ts f ∧ f.Same g

namespace Says

variable {α : Type} {s t : List (Sign α)} {f g : Formula α}

theorem atom (a : α) : Says .factor [.mark a] (.atom a) := ⟨_, _, rfl, .atom a, .refl _⟩

theorem ofFactor (h : Says .factor s g) (l : Level) : Says l s g := by
  obtain ⟨ts, f, hscan, hread, hsame⟩ := h
  exact ⟨ts, f, hscan, hread.ofFactor l, hsame⟩

theorem toDisjunction {l : Level} (h : Says l s g) : Says .disjunction s g := by
  obtain ⟨ts, f, hscan, hread, hsame⟩ := h
  exact ⟨ts, f, hscan, hread.toDisjunction, hsame⟩

theorem paren (h : Says .disjunction s g) : Says .factor (.char '(' :: s ++ [.char ')']) g := by
  obtain ⟨ts, f, hscan, hread, hsame⟩ := h
  exact ⟨_, f, Token.scan_paren hscan, hread.paren, hsame⟩

theorem not (h : Says .factor s g) : Says .factor (unmarked "NOT ".toList ++ s) (.not g) := by
  obtain ⟨ts, f, hscan, hread, hsame⟩ := h
  exact ⟨_, .not f, Token.scan_not hscan, hread.not, hsame.not⟩

/-- The connective as it stands between two operands. -/
theorem connect (op : Connective) (hs : Says op.level s f) (ht : Says op.level t g) :
    Says op.level (s ++ unmarked (' ' :: op.separator.toList) ++ t) (.connect op f g) := by
  obtain ⟨ts, f', hscan, hread, hsame⟩ := hs
  obtain ⟨us, g', hscan', hread', hsame'⟩ := ht
  obtain ⟨k, hk, hks⟩ := hread.append op hread'
  exact ⟨_, k, Token.scan_connect op hscan hscan', hk, hks.trans (hsame.connect op hsame')⟩

end Says

end Relmap
