import Mathlib.Data.List.Lattice
import Mathlib.Data.List.Nodup
import Relmap.Proofs.Statement.Precedence
import Relmap.Proofs.Text.Marked

/-!
# How tokens group

Tokens put between others need not stay together. If they have an OR outside of all parentheses, an
AND before or after them takes their nearest conjunction only (`Groups.and`), and a negation takes
their first factor only (`Reads.negated`).

Where every atom stands once, that shows: two formulas over other atoms can be given any values at
once (`exists_both`), and so there are values under which what is read and what was meant come apart
(`Grouped.connect`).
-/

namespace Relmap

open Text

/-! ### Atoms -/

/-- Values for atoms of two kinds, where no atom is of both. -/
theorem exists_both {α τ : Type} {A B : List α} (apart : A.Disjoint B) (v w : α → τ) :
    ∃ u : α → τ, (∀ a ∈ A, u a = v a) ∧ ∀ b ∈ B, u b = w b := by
  classical
  exact ⟨fun a => if a ∈ A then v a else w a, fun _ ha => if_pos ha,
    fun _ hb => if_neg fun ha => apart ha hb⟩

/-- A connective on two truth values. -/
def Connective.bool : Connective → Bool → Bool → Bool
  | .and => Bool.and
  | .or => Bool.or

/-- The truth value that a connective passes over. -/
def Connective.unit : Connective → Bool
  | .and => true
  | .or => false

@[simp] theorem Connective.bool_unit (op : Connective) (b : Bool) : op.bool b op.unit = b := by
  cases op <;> cases b <;> rfl

@[simp] theorem Connective.unit_bool (op : Connective) (b : Bool) : op.bool op.unit b = b := by
  cases op <;> cases b <;> rfl

@[simp] theorem Connective.bool_not_unit (op : Connective) (b : Bool) :
    op.bool b (!op.unit) = !op.unit := by
  cases op <;> cases b <;> rfl

@[simp] theorem Connective.not_unit_bool (op : Connective) (b : Bool) :
    op.bool (!op.unit) b = !op.unit := by
  cases op <;> cases b <;> rfl

namespace Formula

variable {α β τ : Type}

/-- The atoms of a formula, from left to right. -/
def atoms : Formula α → List α
  | .atom a => [a]
  | .and f g | .or f g => atoms f ++ atoms g
  | .not f => atoms f

/-- The formula with a formula in the place of each atom. -/
def bind (σ : α → Formula β) : Formula α → Formula β
  | .atom a => σ a
  | .and f g => .and (bind σ f) (bind σ g)
  | .or f g => .or (bind σ f) (bind σ g)
  | .not f => .not (bind σ f)

/-- The formula over other atoms. -/
def map (r : α → β) (f : Formula α) : Formula β := f.bind fun a => .atom (r a)

@[simp] theorem atoms_connect (op : Connective) (f g : Formula α) :
    (connect op f g).atoms = f.atoms ++ g.atoms := by
  cases op <;> rfl

@[simp] theorem bind_connect (op : Connective) (σ : α → Formula β) (f g : Formula α) :
    (connect op f g).bind σ = connect op (f.bind σ) (g.bind σ) := by
  cases op <;> rfl

@[simp] theorem eval_connect (op : Connective) (v : α → Bool) (f g : Formula α) :
    (connect op f g).eval .boolean v = op.bool (f.eval .boolean v) (g.eval .boolean v) := by
  cases op <;> rfl

theorem atoms_map (r : α → β) (f : Formula α) : (f.map r).atoms = f.atoms.map r := by
  induction f with
  | atom a => rfl
  | and f g ihf ihg | or f g ihf ihg => simpa [map, bind, atoms] using congrArg₂ (· ++ ·) ihf ihg
  | not f ih => exact ih

theorem map_map_of_leftInverse {r : α → β} {r' : β → α} (h : Function.LeftInverse r' r)
    (f : Formula α) : (f.map r).map r' = f := by
  induction f with
  | atom a => exact congrArg atom (h a)
  | and f g ihf ihg => exact congrArg₂ and ihf ihg
  | or f g ihf ihg => exact congrArg₂ or ihf ihg
  | not f ih => exact congrArg not ih

/-- What stands in the place of an atom is given its value first. -/
theorem eval_bind (L : Logic τ) (v : β → τ) (σ : α → Formula β) (f : Formula α) :
    (f.bind σ).eval L v = f.eval L fun a => (σ a).eval L v := by
  induction f with
  | atom a => rfl
  | and f g ihf ihg | or f g ihf ihg => rw [bind, eval, eval, ihf, ihg]
  | not f ih => rw [bind, eval, eval, ih]

/-- Only the values of its atoms count for a formula. -/
theorem eval_congr {L : Logic τ} {v w : α → τ} {f : Formula α} (h : ∀ a ∈ f.atoms, v a = w a) :
    f.eval L v = f.eval L w := by
  induction f with
  | atom a => exact h a (List.mem_singleton_self a)
  | and f g ihf ihg | or f g ihf ihg =>
    rw [eval, eval, ihf fun a ha => h a (List.mem_append_left _ ha),
      ihg fun a ha => h a (List.mem_append_right _ ha)]
  | not f ih => rw [eval, eval, ih h]

/-- A formula in which every atom stands once can be true and can be false. -/
theorem exists_eval_eq {f : Formula α} (once : f.atoms.Nodup) (b : Bool) :
    ∃ v, f.eval .boolean v = b := by
  induction f generalizing b with
  | atom a => exact ⟨fun _ => b, rfl⟩
  | and f g ihf ihg | or f g ihf ihg =>
    obtain ⟨hf, hg, apart⟩ := List.nodup_append'.mp once
    obtain ⟨v, hv⟩ := ihf hf b
    obtain ⟨w, hw⟩ := ihg hg b
    obtain ⟨u, huv, huw⟩ := exists_both apart v w
    refine ⟨u, ?_⟩
    rw [eval, eval_congr huv, eval_congr huw, hv, hw]
    cases b <;> rfl
  | not f ih =>
    obtain ⟨v, hv⟩ := ih once !b
    exact ⟨v, by rw [eval, hv]; exact Bool.not_not b⟩

theorem exists_opposite {f : Formula α} (once : f.atoms.Nodup) (b : Bool) :
    ∃ v, f.eval .boolean v = b ∧ f.not.eval .boolean v = !b := by
  obtain ⟨v, hv⟩ := exists_eval_eq once b
  exact ⟨v, hv, congrArg Bool.not hv⟩

end Formula

namespace Token

variable {α β : Type}

/-- The atom of a token, if it is one. -/
def atom? : Token α → Option α
  | .atom a => some a
  | _ => none

/-- The atoms among tokens, from left to right. -/
def atoms (ts : List (Token α)) : List α := ts.filterMap atom?

@[simp] theorem atoms_append (ts us : List (Token α)) : atoms (ts ++ us) = atoms ts ++ atoms us :=
  List.filterMap_append

@[simp] theorem atoms_nil : atoms ([] : List (Token α)) = [] := rfl

@[simp] theorem atoms_connective (op : Connective) (ts : List (Token α)) :
    atoms (.connective op :: ts) = atoms ts := rfl

@[simp] theorem atoms_not (ts : List (Token α)) : atoms (.not :: ts) = atoms ts := rfl

@[simp] theorem atoms_left (ts : List (Token α)) : atoms (.left :: ts) = atoms ts := rfl

@[simp] theorem atoms_right (ts : List (Token α)) : atoms (.right :: ts) = atoms ts := rfl

theorem atoms_ofWord {w : List (Sign α)} {ts : List (Token α)} (h : ofWord w = some ts) :
    atoms ts = marks w := by
  unfold ofWord at h
  split at h <;> cases h <;> rfl

theorem atoms_ofBreak? {x : Sign α} {b : List (Token α)} (h : ofBreak? x = some b) :
    atoms b = [] ∧ marks [x] = [] := by
  unfold ofBreak? at h
  split at h <;> cases h <;> exact ⟨rfl, rfl⟩

theorem atoms_scanFrom {word s : List (Sign α)} {ts : List (Token α)}
    (h : scanFrom word s = some ts) : atoms ts = marks word ++ marks s := by
  induction s generalizing word ts with
  | nil => simpa using atoms_ofWord (w := word) h
  | cons x r ih =>
    cases hx : ofBreak? x with
    | none =>
      rw [scanFrom_cons_none hx] at h
      rw [ih h, marks_append, List.append_assoc, ← marks_append, List.singleton_append]
    | some b =>
      obtain ⟨w, us, hw, hus, rfl⟩ := scanFrom_cons_some hx h
      obtain ⟨hb, hmark⟩ := atoms_ofBreak? hx
      rw [← List.singleton_append (x := x), marks_append, hmark, atoms_append, atoms_append, hb,
        atoms_ofWord hw, ih hus]
      simp

/-- Every mark becomes an atom. -/
theorem atoms_scan {s : List (Sign α)} {ts : List (Token α)} (h : scan s = some ts) :
    atoms ts = marks s := atoms_scanFrom h

/-- The token over other atoms. -/
def map (r : α → β) : Token α → Token β
  | .atom a => .atom (r a)
  | .left => .left
  | .right => .right
  | .connective op => .connective op
  | .not => .not

theorem map_map_of_leftInverse {r : α → β} {r' : β → α} (h : Function.LeftInverse r' r)
    (ts : List (Token α)) : (ts.map (map r)).map (map r') = ts := by
  rw [List.map_map]
  refine List.map_id'' (fun t => ?_) ts
  cases t with
  | atom a => exact congrArg atom (h a)
  | left | right | connective | not => rfl

theorem ofBreak?_map (r : α → β) (x : Sign α) :
    ofBreak? (x.map r) = (ofBreak? x).map (List.map (map r)) := by
  unfold ofBreak?
  split <;> cases x <;> simp_all [Sign.map, map]

theorem ofWord_map (r : α → β) {w : List (Sign α)} {ts : List (Token α)} (h : ofWord w = some ts) :
    ofWord (w.map (Sign.map r)) = some (ts.map (map r)) := by
  unfold ofWord at h
  split at h <;> cases h <;> rfl

theorem scanFrom_map (r : α → β) {word s : List (Sign α)} {ts : List (Token α)}
    (h : scanFrom word s = some ts) :
    scanFrom (word.map (Sign.map r)) (s.map (Sign.map r)) = some (ts.map (map r)) := by
  induction s generalizing word ts with
  | nil => exact ofWord_map r h
  | cons x s ih =>
    cases hx : ofBreak? x with
    | none =>
      rw [scanFrom_cons_none hx] at h
      simpa [scanFrom, ofBreak?_map, hx] using ih h
    | some b =>
      obtain ⟨w, us, hw, hus, rfl⟩ := scanFrom_cons_some hx h
      have hrest : scanFrom [] (s.map (Sign.map r)) = some (us.map (map r)) := ih hus
      simp [scanFrom, ofBreak?_map, hx, ofWord_map r hw, hrest]

theorem scan_map (r : α → β) {s : List (Sign α)} {ts : List (Token α)} (h : scan s = some ts) :
    scan (s.map (Sign.map r)) = some (ts.map (map r)) := scanFrom_map r h

end Token

namespace Reads

variable {α β : Type} {l : Level} {ts : List (Token α)} {f : Formula α}

/-- Every atom is read once, where it stands. -/
theorem atoms_eq (h : Reads l ts f) : f.atoms = Token.atoms ts := by
  induction h with
  | atom a => rfl
  | not h ih => exact ih
  | paren h ih => simpa [Token.atoms_right] using ih
  | operand op h ih => exact ih
  | connect op hs ht ihs iht => simp [ihs, iht]

theorem map (r : α → β) (h : Reads l ts f) : Reads l (ts.map (Token.map r)) (f.map r) := by
  induction h with
  | atom a => exact .atom (r a)
  | not h ih => exact ih.not
  | paren h ih => simpa [Token.map] using ih.paren
  | operand op h ih => exact ih.operand op
  | connect op hs ht ihs iht => simpa [Formula.map, Token.map] using ihs.connect op iht

/-- Other names for the atoms change nothing, as long as they stay apart. -/
theorem map_iff {r : α → β} {r' : β → α} (h : Function.LeftInverse r' r) :
    Reads l (ts.map (Token.map r)) (f.map r) ↔ Reads l ts f := by
  refine ⟨fun hread => ?_, Reads.map r⟩
  have hback := hread.map r'
  rwa [Token.map_map_of_leftInverse h, Formula.map_map_of_leftInverse h] at hback

/-- **A negation takes the first factor of what it stands before.** What is read then can still be
the opposite of what stands there, and where there is more than one factor it can also be the
same. -/
theorem negated (h : Reads l ts f) (once : (Token.atoms ts).Nodup) :
    ∃ g, Reads l (.not :: ts) g ∧
      (∀ b, ∃ v, f.eval .boolean v = b ∧ g.eval .boolean v = !b) ∧
      (Reads .factor ts f ∨ ∃ v : α → Bool, f.eval .boolean v = g.eval .boolean v) := by
  induction h with
  | atom a => exact ⟨_, (Reads.atom a).not, Formula.exists_opposite once, .inl (.atom a)⟩
  | not h =>
    exact ⟨_, h.not.not, Formula.exists_opposite (by rwa [h.not.atoms_eq]), .inl h.not⟩
  | paren h =>
    exact ⟨_, h.paren.not, Formula.exists_opposite (by rwa [h.paren.atoms_eq]), .inl h.paren⟩
  | operand op h ih =>
    obtain ⟨g, hg, hvalues⟩ := ih once
    exact ⟨g, hg.operand op, hvalues⟩
  | @connect s t f f' op hs ht ihs iht =>
    have hatoms : (Token.atoms s ++ Token.atoms t).Nodup := by simpa using once
    obtain ⟨hs', ht', apart⟩ := List.nodup_append'.mp hatoms
    obtain ⟨g, hg, hopposite, -⟩ := ihs hs'
    have hg' : g.atoms = Token.atoms s := hg.atoms_eq
    have both (b c : Bool) : ∃ u : α → Bool, f.eval .boolean u = b ∧ g.eval .boolean u = !b ∧
        f'.eval .boolean u = c := by
      obtain ⟨v, hv, hv'⟩ := hopposite b
      obtain ⟨w, hw⟩ := Formula.exists_eval_eq (f := f') (by rwa [ht.atoms_eq]) c
      obtain ⟨u, huv, huw⟩ := exists_both apart v w
      refine ⟨u, ?_, ?_, ?_⟩
      · rw [Formula.eval_congr (by rwa [hs.atoms_eq]), hv]
      · rw [Formula.eval_congr (by rwa [hg']), hv']
      · rw [Formula.eval_congr (by rwa [ht.atoms_eq]), hw]
    refine ⟨.connect op g f', hg.connect op ht, fun b => ?_, .inr ?_⟩
    · obtain ⟨u, hf, hneg, hf'⟩ := both b op.unit
      exact ⟨u, by simp [hf, hf'], by simp [hneg, hf']⟩
    · obtain ⟨u, -, -, hf'⟩ := both true !op.unit
      exact ⟨u, by simp [hf']⟩

end Reads

/-! ### Groups -/

/-- Tokens that are read as conjunctions with ORs between them. -/
inductive Groups {α : Type} : List (Token α) → List (Formula α) → Prop
  | one {ts c} (h : Reads .conjunction ts c) : Groups ts [c]
  | more {s t cs c} (hs : Groups s cs) (ht : Reads .conjunction t c) :
    Groups (s ++ .connective .or :: t) (cs ++ [c])

/-- One of the formulas is true. -/
def someTrue {α : Type} (v : α → Bool) (gs : List (Formula α)) : Bool :=
  gs.any fun g => g.eval .boolean v

theorem someTrue_singleton {α : Type} (v : α → Bool) (g : Formula α) :
    someTrue v [g] = g.eval .boolean v := by
  simp [someTrue]

theorem someTrue_append {α : Type} (v : α → Bool) (gs hs : List (Formula α)) :
    someTrue v (gs ++ hs) = (someTrue v gs || someTrue v hs) := List.any_append

theorem someTrue_congr {α : Type} {v w : α → Bool} {gs : List (Formula α)}
    (h : ∀ g ∈ gs, g.eval .boolean v = g.eval .boolean w) : someTrue v gs = someTrue w gs := by
  induction gs with
  | nil => rfl
  | cons g r ih =>
    obtain ⟨hg, hr⟩ := List.forall_mem_cons.mp h
    exact congrArg₂ Bool.or hg (ih hr)

theorem someTrue_eq {α : Type} {v : α → Bool} {gs : List (Formula α)} {b : Bool} (hne : gs ≠ [])
    (h : ∀ g ∈ gs, g.eval .boolean v = b) : someTrue v gs = b := by
  obtain ⟨g, r, rfl⟩ := List.exists_cons_of_ne_nil hne
  cases b <;> simp_all [someTrue]

theorem someTrue_of_mem {α : Type} {v : α → Bool} {gs : List (Formula α)} {g : Formula α}
    (hmem : g ∈ gs) (h : g.eval .boolean v = true) : someTrue v gs = true :=
  List.any_eq_true.mpr ⟨g, hmem, h⟩

namespace Groups

variable {α : Type} {s t ts : List (Token α)} {f c e : Formula α} {cs es gs : List (Formula α)}

theorem ne_nil (h : Groups ts gs) : gs ≠ [] := by
  cases h <;> simp

/-- A disjunction falls into groups, and is a conjunction where it is one group. -/
theorem of_reads (h : Reads .disjunction ts f) :
    ∃ gs, Groups ts gs ∧ (∀ v, f.eval .boolean v = someTrue v gs) ∧
      (gs.length < 2 → Reads .conjunction ts f) := by
  generalize hl : Level.disjunction = l at h
  induction h with
  | atom | not | paren => cases hl
  | @operand ts f op h ih =>
    cases op with
    | and => cases hl
    | or => exact ⟨[f], .one h, fun v => by simp [someTrue], fun _ => h⟩
  | @connect s t f g op hs ht ih =>
    cases op with
    | and => cases hl
    | or =>
      obtain ⟨gs, hgs, hvalue, -⟩ := ih rfl
      refine ⟨gs ++ [g], hgs.more ht, fun v => ?_, fun hlen => ?_⟩
      · simp [someTrue, hvalue v, Connective.bool]
      · have hpos : 0 < gs.length := List.length_pos_iff.mpr hgs.ne_nil
        rw [List.length_append, List.length_singleton] at hlen
        omega

/-- Groups are read as one of them being true. -/
theorem toReads (h : Groups ts gs) :
    ∃ f, Reads .disjunction ts f ∧ ∀ v, f.eval .boolean v = someTrue v gs := by
  induction h with
  | @one ts c h => exact ⟨c, .operand .or h, fun v => by simp [someTrue]⟩
  | @more s t cs c hs ht ih =>
    obtain ⟨f, hf, hvalue⟩ := ih
    exact ⟨.connect .or f c, hf.connect .or ht, fun v => by
      simp [someTrue, hvalue v, Connective.bool]⟩

theorem atoms_eq (h : Groups ts gs) : gs.flatMap Formula.atoms = Token.atoms ts := by
  induction h with
  | one h => simpa using h.atoms_eq
  | more hs ht ih => simp [ih, ht.atoms_eq]

/-- Groups in which every atom stands once can all be true and can all be false. -/
theorem together (h : Groups ts gs) (once : (Token.atoms ts).Nodup) (b : Bool) :
    ∃ v : α → Bool, ∀ g ∈ gs, g.eval .boolean v = b := by
  induction h with
  | @one ts c h =>
    obtain ⟨v, hv⟩ := Formula.exists_eval_eq (f := c) (by rwa [h.atoms_eq]) b
    exact ⟨v, by simpa using hv⟩
  | @more s t cs c hs ht ih =>
    have hatoms : (Token.atoms s ++ Token.atoms t).Nodup := by simpa using once
    obtain ⟨hs', ht', apart⟩ := List.nodup_append'.mp hatoms
    obtain ⟨v, hv⟩ := ih hs'
    obtain ⟨w, hw⟩ := Formula.exists_eval_eq (f := c) (by rwa [ht.atoms_eq]) b
    obtain ⟨u, huv, huw⟩ := exists_both apart v w
    refine ⟨u, List.forall_mem_append.mpr ⟨fun g hg => ?_, List.forall_mem_singleton.mpr ?_⟩⟩
    · have hmem : ∀ a ∈ g.atoms, u a = v a := fun a ha =>
        huv a (hs.atoms_eq ▸ List.mem_flatMap.mpr ⟨g, hg, ha⟩)
      rw [Formula.eval_congr hmem, hv g hg]
    · rw [Formula.eval_congr (by rwa [ht.atoms_eq]), hw]

/-- What follows an OR is further groups. -/
theorem or (hs : Groups s cs) (ht : Groups t es) :
    Groups (s ++ .connective .or :: t) (cs ++ es) := by
  induction ht with
  | one h => exact hs.more h
  | more ht' h ih => simpa using ih.more h

theorem last (h : Groups s (cs ++ [c])) :
    (cs = [] ∧ Reads .conjunction s c) ∨
      ∃ s' s'', s = s' ++ .connective .or :: s'' ∧ Groups s' cs ∧ Reads .conjunction s'' c := by
  generalize hgs : cs ++ [c] = gs at h
  cases h with
  | one h =>
    obtain ⟨rfl, rfl⟩ : cs = [] ∧ c = _ := by simpa using List.append_eq_singleton_iff.mp hgs
    exact .inl ⟨rfl, h⟩
  | more hs ht =>
    obtain ⟨rfl, hc⟩ := List.append_inj' hgs rfl
    cases hc
    exact .inr ⟨_, _, rfl, hs, ht⟩

/-- **What is around an AND takes the nearest conjunction of what stands there**, and the other ones
stay by themselves. -/
theorem and (hs : Groups s (cs ++ [c])) (ht : Groups t (e :: es)) :
    ∃ k, Groups (s ++ .connective .and :: t) (cs ++ k :: es) ∧ k.Same (.and c e) := by
  generalize hgs : e :: es = gs at ht
  induction ht generalizing es with
  | @one t d h =>
    obtain ⟨rfl, rfl⟩ := List.cons.inj hgs
    obtain ⟨rfl, hc⟩ | ⟨s', s'', rfl, hs', hc⟩ := hs.last
    · obtain ⟨k, hk, hsame⟩ := Reads.append .and hc h
      exact ⟨k, .one hk, hsame⟩
    · obtain ⟨k, hk, hsame⟩ := Reads.append .and hc h
      exact ⟨k, by simpa using hs'.more hk, hsame⟩
  | @more t t' ds d ht' h ih =>
    obtain ⟨e', ds', rfl⟩ := List.exists_cons_of_ne_nil ht'.ne_nil
    obtain ⟨rfl, rfl⟩ := List.cons.inj hgs
    obtain ⟨k, hk, hsame⟩ := ih rfl
    exact ⟨k, by simpa using hk.more h, hsame⟩

end Groups

/-! ### What is meant and what is read -/

/-- What is meant and what is read: a formula, and tokens that fall into groups. They have the same
atoms, and it is possible that both are true throughout or false throughout. -/
structure Grouped {α : Type} (f : Formula α) (ts : List (Token α)) (gs : List (Formula α)) :
    Prop where
  groups : Groups ts gs
  atoms_eq : f.atoms = Token.atoms ts
  together : ∀ b, ∃ v, f.eval .boolean v = b ∧ ∀ g ∈ gs, g.eval .boolean v = b

/-- For some values of the atoms, what is read is not what is meant. -/
def Misread {α : Type} (f : Formula α) (gs : List (Formula α)) : Prop :=
  ∃ v, f.eval .boolean v ≠ someTrue v gs

/-- Under this connective, what is read is not going to be what is meant: either it is not even by
itself, or it falls into groups. -/
def Astray {α : Type} (op : Connective) (f : Formula α) (gs : List (Formula α)) : Prop :=
  Misread f gs ∨ op = .and ∧ 2 ≤ gs.length

/-- Under OR nothing goes astray. -/
theorem Astray.misread {α : Type} {f : Formula α} {gs : List (Formula α)} (h : Astray .or f gs) :
    Misread f gs := h.resolve_right fun h => nomatch h.1

theorem Astray.misread_single {α : Type} {op : Connective} {f g : Formula α}
    (h : Astray op f [g]) : Misread f [g] :=
  h.resolve_right fun h => Nat.not_succ_le_self 1 h.2

namespace Grouped

variable {α : Type} {s t ts : List (Token α)} {f g : Formula α} {cs es gs : List (Formula α)}

/-- Both sides take their values independently. -/
theorem exists_both (h : Grouped f s cs) (h' : Grouped g t es) (apart : f.atoms.Disjoint g.atoms)
    (v w : α → Bool) :
    ∃ u, f.eval .boolean u = f.eval .boolean v ∧
      (∀ c ∈ cs, c.eval .boolean u = c.eval .boolean v) ∧
      g.eval .boolean u = g.eval .boolean w ∧ ∀ e ∈ es, e.eval .boolean u = e.eval .boolean w := by
  obtain ⟨u, huv, huw⟩ := Relmap.exists_both apart v w
  refine ⟨u, Formula.eval_congr huv, fun c hc => Formula.eval_congr fun a ha => huv a ?_,
    Formula.eval_congr huw, fun e he => Formula.eval_congr fun a ha => huw a ?_⟩
  · rw [h.atoms_eq, ← h.groups.atoms_eq]
    exact List.mem_flatMap.mpr ⟨c, hc, ha⟩
  · rw [h'.atoms_eq, ← h'.groups.atoms_eq]
    exact List.mem_flatMap.mpr ⟨e, he, ha⟩

/-- Both sides are true or false throughout, as one likes. -/
theorem together_both (h : Grouped f s cs) (h' : Grouped g t es) (apart : f.atoms.Disjoint g.atoms)
    (b b' : Bool) :
    ∃ u, f.eval .boolean u = b ∧ (∀ c ∈ cs, c.eval .boolean u = b) ∧
      g.eval .boolean u = b' ∧ ∀ e ∈ es, e.eval .boolean u = b' := by
  obtain ⟨v, hv, hcs⟩ := h.together b
  obtain ⟨w, hw, hes⟩ := h'.together b'
  obtain ⟨u, hf, hcu, hg, heu⟩ := h.exists_both h' apart v w
  exact ⟨u, hf.trans hv, fun c hc => (hcu c hc).trans (hcs c hc), hg.trans hw,
    fun e he => (heu e he).trans (hes e he)⟩

/-- One side is misread and the other one is true or false throughout, as one likes. -/
theorem misread_left (h : Grouped f s cs) (h' : Grouped g t es) (apart : f.atoms.Disjoint g.atoms)
    (hmis : Misread f cs) (b : Bool) :
    ∃ u, f.eval .boolean u ≠ someTrue u cs ∧ g.eval .boolean u = b ∧
      ∀ e ∈ es, e.eval .boolean u = b := by
  obtain ⟨v, hv⟩ := hmis
  obtain ⟨w, hw, hes⟩ := h'.together b
  obtain ⟨u, hf, hcu, hg, heu⟩ := h.exists_both h' apart v w
  refine ⟨u, ?_, hg.trans hw, fun e he => (heu e he).trans (hes e he)⟩
  rwa [hf, someTrue_congr hcu]

/-- A formula that is read as itself. -/
theorem of_reads (h : Reads .disjunction ts f) (once : (Token.atoms ts).Nodup) :
    ∃ gs, Grouped f ts gs ∧ ∀ op : Connective, ¬Reads op.level ts f → Astray op f gs := by
  obtain ⟨gs, hgs, hvalue, hsingle⟩ := Groups.of_reads h
  refine ⟨gs, ⟨hgs, h.atoms_eq, fun b => ?_⟩, fun op hop => ?_⟩
  · obtain ⟨v, hv⟩ := hgs.together once b
    exact ⟨v, by rw [hvalue, someTrue_eq hgs.ne_nil hv], hv⟩
  · cases op with
    | and => exact .inr ⟨rfl, Nat.le_of_not_lt fun hlen => hop (hsingle hlen)⟩
    | or => exact absurd h hop

theorem or (h : Grouped f s cs) (h' : Grouped g t es) (apart : f.atoms.Disjoint g.atoms) :
    Grouped (.or f g) (s ++ .connective .or :: t) (cs ++ es) ∧
      (Misread f cs ∨ Misread g es → Misread (.or f g) (cs ++ es)) := by
  have hmeant (u : α → Bool) :
      (f.or g).eval .boolean u = (f.eval .boolean u || g.eval .boolean u) := rfl
  refine ⟨⟨h.groups.or h'.groups, ?_, fun b => ?_⟩, ?_⟩
  · simp [Formula.atoms, h.atoms_eq, h'.atoms_eq]
  · obtain ⟨u, hf, hcs, hg, hes⟩ := h.together_both h' apart b b
    exact ⟨u, by rw [hmeant, hf, hg, Bool.or_self], List.forall_mem_append.mpr ⟨hcs, hes⟩⟩
  · -- the side that is well read is false, so that the other one decides
    rintro (hmis | hmis)
    · obtain ⟨u, hne, hg, hes⟩ := h.misread_left h' apart hmis false
      refine ⟨u, ?_⟩
      rwa [hmeant, hg, Bool.or_false, someTrue_append, someTrue_eq h'.groups.ne_nil hes,
        Bool.or_false]
    · obtain ⟨u, hne, hf, hcs⟩ := h'.misread_left h apart.symm hmis false
      refine ⟨u, ?_⟩
      rwa [hmeant, hf, Bool.false_or, someTrue_append, someTrue_eq h.groups.ne_nil hcs,
        Bool.false_or]

theorem and (h : Grouped f s cs) (h' : Grouped g t es) (apart : f.atoms.Disjoint g.atoms) :
    ∃ gs, Grouped (.and f g) (s ++ .connective .and :: t) gs ∧
      (Astray .and f cs ∨ Astray .and g es → Misread (.and f g) gs) := by
  obtain ⟨cs', c, rfl⟩ : ∃ cs' c, cs = cs' ++ [c] :=
    ⟨_, _, (List.dropLast_append_getLast h.groups.ne_nil).symm⟩
  obtain ⟨e, es', rfl⟩ := List.exists_cons_of_ne_nil h'.groups.ne_nil
  obtain ⟨k, hk, hsame⟩ := h.groups.and h'.groups
  have hvalue (u : α → Bool) : k.eval .boolean u = (c.eval .boolean u && e.eval .boolean u) :=
    hsame Bool .boolean u
  have hmeant (u : α → Bool) :
      (f.and g).eval .boolean u = (f.eval .boolean u && g.eval .boolean u) := rfl
  refine ⟨cs' ++ k :: es', ⟨hk, ?_, fun b => ?_⟩, fun hastray => ?_⟩
  · simp [Formula.atoms, h.atoms_eq, h'.atoms_eq]
  · obtain ⟨u, hf, hcs, hg, hes⟩ := h.together_both h' apart b b
    obtain ⟨hcs', hc⟩ := List.forall_mem_append.mp hcs
    obtain ⟨he, hes'⟩ := List.forall_mem_cons.mp hes
    have hk : k.eval .boolean u = b := by rw [hvalue, hc c (List.mem_singleton_self c), he]; simp
    exact ⟨u, by rw [hmeant, hf, hg]; simp,
      List.forall_mem_append.mpr ⟨hcs', List.forall_mem_cons.mpr ⟨hk, hes'⟩⟩⟩
  · by_cases hleft : cs' = []
    · by_cases hright : es' = []
      · subst hleft hright
        rw [List.nil_append] at h ⊢
        have hread (u : α → Bool) : someTrue u [k] = (someTrue u [c] && someTrue u [e]) := by
          rw [someTrue_singleton, someTrue_singleton, someTrue_singleton, hvalue]
        -- the side that is well read is true, so that the other one decides
        rcases hastray with hmis | hmis
        · obtain ⟨u, hne, hg, hes⟩ := h.misread_left h' apart hmis.misread_single true
          refine ⟨u, ?_⟩
          rwa [hmeant, hg, Bool.and_true, hread, someTrue_eq h'.groups.ne_nil hes, Bool.and_true]
        · obtain ⟨u, hne, hf, hcs⟩ :=
            h'.misread_left h apart.symm hmis.misread_single true
          refine ⟨u, ?_⟩
          rwa [hmeant, hf, Bool.true_and, hread, someTrue_eq h.groups.ne_nil hcs, Bool.true_and]
      · -- what the right side has after its first group is true, and the left side is false
        obtain ⟨u, hf, -, -, hes⟩ := h.together_both h' apart false true
        obtain ⟨d, hd⟩ := List.exists_mem_of_ne_nil es' hright
        refine ⟨u, ?_⟩
        rw [hmeant, hf, Bool.false_and, someTrue_of_mem (g := d) (by simp [hd])
          (hes d (List.mem_cons_of_mem e hd))]
        decide
    · -- what the left side has before its last group is true, and the right side is false
      obtain ⟨u, -, hcs, hg, -⟩ := h.together_both h' apart true false
      obtain ⟨d, hd⟩ := List.exists_mem_of_ne_nil cs' hleft
      refine ⟨u, ?_⟩
      rw [hmeant, hg, Bool.and_false, someTrue_of_mem (g := d) (by simp [hd])
        (hcs d (List.mem_append_left _ hd))]
      decide

/-- Two operands of a connective: what goes astray under it is misread with it. -/
theorem connect (op : Connective) (h : Grouped f s cs) (h' : Grouped g t es)
    (apart : f.atoms.Disjoint g.atoms) :
    ∃ gs, Grouped (.connect op f g) (s ++ .connective op :: t) gs ∧
      (Astray op f cs ∨ Astray op g es → Misread (.connect op f g) gs) := by
  cases op with
  | and => exact h.and h' apart
  | or =>
    obtain ⟨hor, hmis⟩ := h.or h' apart
    exact ⟨_, hor, fun hastray => hmis (hastray.imp Astray.misread Astray.misread)⟩

/-- In parentheses there is one group, which is a factor. -/
theorem enclosed (h : Grouped f ts gs) :
    ∃ g, Reads .factor (.left :: ts ++ [.right]) g ∧ Grouped f (.left :: ts ++ [.right]) [g] ∧
      (Misread f gs → Misread f [g]) := by
  obtain ⟨g, hread, hvalue⟩ := h.groups.toReads
  have hfactor : Reads .factor (.left :: ts ++ [.right]) g := hread.paren
  refine ⟨g, hfactor, ⟨.one (hfactor.ofFactor _), ?_, fun b => ?_⟩, fun ⟨v, hv⟩ => ⟨v, ?_⟩⟩
  · simp [h.atoms_eq]
  · obtain ⟨v, hv, hgs⟩ := h.together b
    exact ⟨v, hv, by simp [hvalue, someTrue_eq h.groups.ne_nil hgs]⟩
  · rwa [someTrue_singleton, hvalue]

/-- The negation of a factor. -/
theorem not (h : Grouped f ts [g]) (hread : Reads .factor ts g) :
    Grouped f.not (.not :: ts) [g.not] ∧ (Misread f [g] → Misread f.not [g.not]) := by
  refine ⟨⟨.one (hread.not.ofFactor _), h.atoms_eq, fun b => ?_⟩, fun ⟨v, hv⟩ => ⟨v, ?_⟩⟩
  · obtain ⟨v, hv, hg⟩ := h.together !b
    have hg : g.eval .boolean v = !b := hg g (List.mem_singleton_self g)
    refine ⟨v, ?_, List.forall_mem_singleton.mpr ?_⟩
    · exact (congrArg Bool.not hv).trans (Bool.not_not b)
    · exact (congrArg Bool.not hg).trans (Bool.not_not b)
  · intro heq
    rw [someTrue_singleton] at heq hv
    exact hv (Bool.not_inj heq)

/-- What stands in parentheses after a negation is misread unless it is a factor. -/
theorem negated (h : Reads .disjunction ts f) (once : (Token.atoms ts).Nodup) :
    ∃ g, Reads .factor (.left :: .not :: ts ++ [.right]) g ∧
      Grouped f.not (.left :: .not :: ts ++ [.right]) [g] ∧
      (¬Reads .factor ts f → Misread f.not [g]) := by
  obtain ⟨g, hread, hopposite, hsame⟩ := h.negated once
  have hfactor : Reads .factor (.left :: .not :: ts ++ [.right]) g := hread.paren
  refine ⟨g, hfactor, ⟨.one (hfactor.ofFactor _), ?_, fun b => ?_⟩, fun hno => ?_⟩
  · simpa [Formula.atoms] using h.atoms_eq
  · obtain ⟨v, hv, hg⟩ := hopposite !b
    refine ⟨v, ?_, List.forall_mem_singleton.mpr (by rw [hg, Bool.not_not])⟩
    exact (congrArg Bool.not hv).trans (Bool.not_not b)
  · obtain ⟨v, hv⟩ := hsame.resolve_left hno
    refine ⟨v, ?_⟩
    rw [someTrue_singleton, ← hv]
    exact fun h => (Bool.not_eq_self _).mp h

end Grouped

end Relmap
