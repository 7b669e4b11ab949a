import Mathlib.Algebra.Order.Group.Multiset
import Relmap.Proofs.Outcome
import Relmap.Proofs.Statement.Placement

/-!
# Values left for later

Two conditions of one form, the second of which leaves some values for later that the first one has,
are related by `Clause.Defers`, together with all the values that are left. So are arguments, tests
and queries inside. Both conditions come to the same failure or to templates with the same signs,
whose arguments differ by the same values (`Clause.Defers.tracks`): no value is ever looked at to
write a text.
-/

namespace Relmap

open Template (ofText ofArgument ofMoreArguments)

/-! ### Lists side by side -/

/-- Two lists whose members are related one by one; the values that the pairs leave are put
together. -/
inductive Paired {α : Type} (R : α → α → Multiset Value → Prop) :
    List α → List α → Multiset Value → Prop
  | nil : Paired R [] [] 0
  | cons {a b : α} {as bs : List α} {m n : Multiset Value} (head : R a b m)
      (tail : Paired R as bs n) : Paired R (a :: as) (b :: bs) (m + n)

namespace Paired

variable {α β : Type} {R : α → α → Multiset Value → Prop} {S : β → β → Multiset Value → Prop}
  {as bs as' bs' : List α} {m n : Multiset Value}

theorem refl (hR : ∀ a, R a a 0) (as : List α) : Paired R as as 0 := by
  induction as with
  | nil => exact .nil
  | cons a rest ih => exact zero_add (0 : Multiset Value) ▸ .cons (hR a) ih

theorem single {a b : α} (h : R a b m) : Paired R [a] [b] m := add_zero m ▸ .cons h .nil

theorem length (h : Paired R as bs m) : bs.length = as.length := by
  induction h with
  | nil => rfl
  | cons _ _ ih => rw [List.length_cons, List.length_cons, ih]

theorem append (h : Paired R as bs m) (h' : Paired R as' bs' n) :
    Paired R (as ++ as') (bs ++ bs') (m + n) := by
  induction h with
  | nil => rwa [zero_add]
  | cons head _ ih =>
    rw [add_assoc]
    exact .cons head ih

theorem reverse (h : Paired R as bs m) : Paired R as.reverse bs.reverse m := by
  induction h with
  | nil => exact .nil
  | cons head _ ih =>
    rw [List.reverse_cons, List.reverse_cons, add_comm]
    exact ih.append (single head)

/-- Related lists are cut at the same place. -/
theorem split (count : Nat) (h : Paired R as bs m) :
    ∃ m₁ m₂, m = m₁ + m₂ ∧ Paired R (as.take count) (bs.take count) m₁ ∧
      Paired R (as.drop count) (bs.drop count) m₂ := by
  induction h generalizing count with
  | nil => exact ⟨0, 0, (add_zero 0).symm, by simpa using Paired.nil, by simpa using Paired.nil⟩
  | @cons a b as bs m n head tail ih =>
    cases count with
    | zero => exact ⟨0, m + n, (zero_add _).symm, .nil, .cons head tail⟩
    | succ count =>
      obtain ⟨m₁, m₂, rfl, htake, hdrop⟩ := ih count
      exact ⟨m + m₁, m₂, (add_assoc m m₁ m₂).symm, .cons head htake, hdrop⟩

/-- What succeeds for each member of one list and so for its partner succeeds for both lists. -/
theorem mapM {f g : α → Except Failure β}
    (hstep : ∀ a b m x, R a b m → f a = .ok x → ∃ y, g b = .ok y ∧ S x y m)
    (h : Paired R as bs m) {xs : List β} (hxs : as.mapM f = .ok xs) :
    ∃ ys, bs.mapM g = .ok ys ∧ Paired S xs ys m := by
  induction h generalizing xs with
  | nil =>
    cases hxs
    exact ⟨[], rfl, .nil⟩
  | cons head _ ih =>
    rw [List.mapM_cons] at hxs
    simp only [Outcome.bind_eq_ok, Outcome.pure_eq_ok] at hxs
    obtain ⟨x, hx, xs, hxs, rfl⟩ := hxs
    obtain ⟨y, hy, hxy⟩ := hstep _ _ _ x head hx
    obtain ⟨ys, hys, htail⟩ := ih hxs
    refine ⟨y :: ys, ?_, .cons hxy htail⟩
    rw [List.mapM_cons, hy, hys]
    rfl

/-- Steps keep states related if each step does that ends well, and a run that ends well has only
such steps. -/
theorem foldl {σ : Type} {f : σ → α → σ} {S : σ → σ → Multiset Value → Prop} {P : σ → Prop}
    (hback : ∀ s a, P (f s a) → P s)
    (hstep : ∀ s s' m a b n, S s s' m → R a b n → P (f s a) → S (f s a) (f s' b) (m + n))
    {s s' : σ} (hs : S s s' m) (h : Paired R as bs n) (hok : P (as.foldl f s)) :
    S (as.foldl f s) (bs.foldl f s') (m + n) := by
  have hfirst : ∀ (as : List α) s, P (as.foldl f s) → P s := by
    intro as
    induction as with
    | nil => exact fun _ hok => hok
    | cons a rest ih => exact fun s hok => hback s a (ih _ hok)
  induction h generalizing s s' m with
  | nil => rwa [add_zero]
  | cons head tail ih =>
    rw [← add_assoc]
    exact ih (hstep _ _ _ _ _ _ hs head (hfirst _ _ hok)) hok

end Paired

/-! ### Arguments, tests and conditions -/

/-- An argument that is left for later keeps the field that made its stored value. -/
inductive Argument.Defers : Argument → Argument → Multiset Value → Prop
  | same (a : Argument) : Defers a a 0
  | late {f : Field} {v w : Value} (h : f.toStored v = .ok w) :
    Defers ⟨.field f, some w, false⟩ ⟨.field f, none, true⟩ {v}

/-- A test with arguments left for later. -/
inductive Leaf.Defers : Leaf → Leaf → Multiset Value → Prop
  | compare {column operator : String} {a a' : Argument} {m : Multiset Value}
      (h : a.Defers a' m) :
    Defers (.compare column operator (.argument a)) (.compare column operator (.argument a')) m
  | between {column : String} {low low' high high' : Argument} {m n : Multiset Value}
      (hlow : low.Defers low' m) (hhigh : high.Defers high' n) :
    Defers (.between column low high) (.between column low' high') (m + n)
  | inList {column : String} {first first' : Argument} {rest rest' : List Argument}
      {negated : Bool} {m n : Multiset Value} (hfirst : first.Defers first' m)
      (hrest : Paired Argument.Defers rest rest' n) :
    Defers (.inList column first rest negated) (.inList column first' rest' negated) (m + n)

mutual

/-- A condition with arguments left for later. -/
inductive Clause.Defers : Clause → Clause → Multiset Value → Prop
  | same (c : Clause) : Clause.Defers c c 0
  | leaf {l l' : Leaf} {m : Multiset Value} (h : l.Defers l' m) :
    Clause.Defers (.leaf l) (.leaf l') m
  | inQuery {column : String} {query query' : SubQuery} {negated : Bool} {m : Multiset Value}
      (h : SubQuery.Defers query query' m) :
    Clause.Defers (.inQuery column query negated) (.inQuery column query' negated) m
  | many {op : Connective} {first first' second second' : Clause} {rest rest' : List Clause}
      {l m n : Multiset Value} (hfirst : Clause.Defers first first' l)
      (hsecond : Clause.Defers second second' m) (hrest : Paired Clause.Defers rest rest' n) :
    Clause.Defers (.many op first second rest) (.many op first' second' rest') (l + m + n)
  | not {operand operand' : Clause} {m : Multiset Value} (h : Clause.Defers operand operand' m) :
    Clause.Defers (.not operand) (.not operand') m
  | nonempty {query query' : SubQuery} {m : Multiset Value} (h : SubQuery.Defers query query' m) :
    Clause.Defers (.nonempty query) (.nonempty query') m

/-- A query with arguments left for later in its condition. -/
inductive SubQuery.Defers : SubQuery → SubQuery → Multiset Value → Prop
  | same (q : SubQuery) : SubQuery.Defers q q 0
  | select {shape : SelectShape} {condition condition' : Condition} {m : Multiset Value}
      (h : Condition.Defers condition condition' m) :
    SubQuery.Defers (.select shape condition) (.select shape condition') m

/-- The condition of a query with arguments left for later. It does not matter what is left in one
that was not put together well. -/
inductive Condition.Defers : Condition → Condition → Multiset Value → Prop
  | same (c : Condition) : Condition.Defers c c 0
  | broken (cause : Failure) (m : Multiset Value) :
    Condition.Defers (.broken cause) (.broken cause) m
  | holds {d : Dialect} {c c' : Clause} {m : Multiset Value} (h : Clause.Defers c c' m) :
    Condition.Defers (.holds d c) (.holds d c') m

end

theorem Clause.Defers.kind {c c' : Clause} {m : Multiset Value} (h : c.Defers c' m) :
    c'.kind = c.kind := by
  cases h <;> rfl

theorem SubQuery.Defers.width {q q' : SubQuery} {m : Multiset Value} (h : q.Defers q' m) :
    q'.width = q.width := by
  cases h <;> rfl

/-! ### Templates -/

/-- A template with arguments left for later: its text does not show it. -/
structure Template.Defers (t t' : Template) (m : Multiset Value) : Prop where
  signs : t'.signs = t.signs
  args : Paired Argument.Defers t.args t'.args m

namespace Template.Defers

variable {t t' u u' : Template} {m n : Multiset Value}

protected theorem refl (t : Template) : t.Defers t 0 := ⟨rfl, .refl .same t.args⟩

theorem argument (d : Dialect) {a a' : Argument} (h : a.Defers a' m) :
    (ofArgument d a).Defers (ofArgument d a') m := ⟨rfl, .single h⟩

theorem append (ht : t.Defers t' m) (hu : u.Defers u' n) : (t ++ u).Defers (t' ++ u') (m + n) := by
  refine ⟨?_, ht.args.append hu.args⟩
  rw [signs_append, signs_append, ht.signs, hu.signs, ht.args.length]

theorem afterText (h : t.Defers t' m) (s : String) : (ofText s ++ t).Defers (ofText s ++ t') m :=
  zero_add m ▸ (Defers.refl (ofText s)).append h

theorem beforeText (h : t.Defers t' m) (s : String) : (t ++ ofText s).Defers (t' ++ ofText s) m :=
  add_zero m ▸ h.append (Defers.refl (ofText s))

theorem between (h : t.Defers t' m) (s e : String) :
    (ofText s ++ t ++ ofText e).Defers (ofText s ++ t' ++ ofText e) m :=
  (h.afterText s).beforeText e

theorem moreArguments (d : Dialect) {args args' : List Argument}
    (h : Paired Argument.Defers args args' m) :
    (ofMoreArguments d args).Defers (ofMoreArguments d args') m := by
  induction h with
  | nil => exact .refl _
  | cons head _ ih => exact ((argument d head).afterText ",").append ih

theorem trimmed (h : t.Defers t' m) : t.trimmed.Defers t'.trimmed m :=
  ⟨congrArg Text.trimMarked h.signs, h.args⟩

theorem operand (h : t.Defers t' m) (op : Connective) (kind : ClauseKind) :
    (t.operand op kind).Defers (t'.operand op kind) m := by
  cases kind with
  | connective inner =>
    simp only [Template.operand]
    split
    · exact h
    · exact h.trimmed.between "(" ") "
  | leaf => exact h
  | not => exact h
  | nonempty => exact h

theorem joined (ht : t.Defers t' m) (op : Connective) (hu : u.Defers u' n) :
    (t.joined op u).Defers (t'.joined op u') (m + n) :=
  ht.append (hu.afterText op.separator)

theorem negation (h : t.Defers t' m) (kind : ClauseKind) :
    (Template.negation kind t).Defers (Template.negation kind t') m := by
  cases kind with
  | nonempty => exact h.afterText "NOT "
  | connective inner => exact h.trimmed.between "(NOT (" ")) "
  | leaf => exact h.trimmed.between "(NOT " ") "
  | not => exact h.trimmed.between "(NOT " ") "

end Template.Defers

theorem Leaf.Defers.template {l l' : Leaf} {m : Multiset Value} (h : l.Defers l' m) (d : Dialect)
    (table : Option String) : (l.template d table).Defers (l'.template d table) m := by
  cases h with
  | compare h => exact (Template.Defers.argument d h).between _ _
  | between hlow hhigh =>
    have harg := Template.Defers.argument d hhigh
    exact ((((Template.Defers.argument d hlow).afterText _).beforeText " AND ").append harg).beforeText
      " "
  | inList hfirst hrest =>
    have hmore := Template.Defers.moreArguments d hrest
    exact (((Template.Defers.argument d hfirst).afterText _).append hmore).beforeText ") "

/-! ### Outcomes -/

/-- Two templates, the second of which has arguments left for later, or the same failure. -/
inductive Template.Tracks :
    Except Failure Template → Except Failure Template → Multiset Value → Prop
  | ok {t t' : Template} {m : Multiset Value} (h : t.Defers t' m) : Tracks (.ok t) (.ok t') m
  | error (e : Failure) (m : Multiset Value) : Tracks (.error e) (.error e) m

namespace Template.Tracks

variable {x y : Except Failure Template} {m n : Multiset Value}

protected theorem refl (x : Except Failure Template) : Tracks x x 0 := by
  cases x with
  | error e => exact .error e 0
  | ok t => exact .ok (.refl t)

theorem map {f g : Template → Template}
    (hstep : ∀ t t', t.Defers t' m → (f t).Defers (g t') n) (h : Tracks x y m) :
    Tracks (x.map f) (y.map g) n := by
  cases h with
  | ok h => exact .ok (hstep _ _ h)
  | error e => exact .error e n

theorem bind {f g : Template → Except Failure Template}
    (hstep : ∀ t t', t.Defers t' m → Tracks (f t) (g t') n) (h : Tracks x y m) :
    Tracks (x >>= f) (y >>= g) n := by
  cases h with
  | ok h => exact hstep _ _ h
  | error e => exact .error e n

end Template.Tracks

open Template (Tracks)

theorem SelectShape.template_tracks (s : SelectShape) {x y : Except Failure Template}
    {m : Multiset Value} (h : Tracks x y m) : Tracks (s.template x) (s.template y) m := by
  unfold SelectShape.template
  cases s.fault with
  | some e => exact .error e m
  | none =>
    refine h.bind fun t t' ht => ?_
    cases s.dialect.window s.limit s.offset with
    | error e => exact .error e m
    | ok window => exact .ok (ht.between _ _)

mutual

/-- **Leaving values for later does not change what a condition writes** but for the arguments. -/
theorem Clause.Defers.tracks (d : Dialect) (table : Option String) :
    ∀ {c c' : Clause} {m : Multiset Value}, c.Defers c' m →
      Tracks (c.template d table) (c'.template d table) m
  | c, _, _, .same _ => .refl _
  | .leaf _, _, _, .leaf h => .ok (h.template d table)
  | .inQuery .., _, _, .inQuery h => (SubQuery.Defers.tracks h).map fun _ _ ht => ht.between _ _
  | .many op first second rest, .many _ first' second' rest', _, .many hfirst hsecond hrest => by
    simp only [Clause.template]
    refine (Clause.Defers.tracks d table hfirst).bind fun a a' ha => ?_
    refine (Clause.Defers.tracks d table hsecond).bind fun b b' hb => ?_
    rw [hfirst.kind, hsecond.kind]
    exact Clause.tracks_joinedTemplate d table op hrest
      ((ha.operand op first.kind).joined op (hb.operand op second.kind))
  | .not operand, .not operand', _, .not h => by
    simp only [Clause.template, h.kind]
    exact (Clause.Defers.tracks d table h).map fun _ _ ht => ht.negation operand.kind
  | .nonempty _, _, _, .nonempty h => (SubQuery.Defers.tracks h).map fun _ _ ht => ht.between _ _

theorem Clause.tracks_joinedTemplate (d : Dialect) (table : Option String) (op : Connective) :
    ∀ {cs cs' : List Clause} {left left' : Template} {m n : Multiset Value},
      Paired Clause.Defers cs cs' n → left.Defers left' m →
        Tracks (Clause.joinedTemplate d table op left cs)
          (Clause.joinedTemplate d table op left' cs') (m + n)
  | [], _, _, _, m, _, .nil, hleft => by
    rw [add_zero]
    exact .ok hleft
  | c :: rest, c' :: rest', left, left', m, _, .cons hc hrest, hleft => by
    simp only [Clause.joinedTemplate]
    refine (Clause.Defers.tracks d table hc).bind fun a a' ha => ?_
    rw [hc.kind, ← add_assoc]
    exact Clause.tracks_joinedTemplate d table op hrest (hleft.joined op (ha.operand op c.kind))

theorem SubQuery.Defers.tracks :
    ∀ {q q' : SubQuery} {m : Multiset Value}, q.Defers q' m → Tracks q.template q'.template m
  | _, _, _, .same _ => .refl _
  | .select shape _, _, _, .select h =>
    (shape.template_tracks (Condition.Defers.tracks shape.qualifier h)).map
      fun _ _ ht => ht.trimmed

theorem Condition.Defers.tracks (table : Option String) :
    ∀ {c c' : Condition} {m : Multiset Value}, c.Defers c' m →
      Tracks (Condition.template table c) (Condition.template table c') m
  | _, _, _, .same _ => .refl _
  | _, _, _, .broken cause m => .error cause m
  | .holds d _, _, _, .holds h =>
    (Clause.Defers.tracks d table h).map fun _ _ ht => ht.afterText "WHERE "

end

end Relmap
