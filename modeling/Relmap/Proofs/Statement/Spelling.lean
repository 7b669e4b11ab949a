import Mathlib.Data.List.Forall2
import Relmap.Proofs.Outcome
import Relmap.Proofs.Statement.Placement
import Relmap.Proofs.Text.Caseless

/-!
# Conditions with columns respelled

A condition keeps the spelling of its columns and writes them so. How columns may be respelled is a
parameter (`Respelling`): not at all, or in another letter case. Conditions of one form whose
columns are respelled (`Clause.Respelled`) write templates with the same arguments, and their texts
are the same to an eye that does not see the respelling (`Clause.Respelled.template`). Where one of
them fails the other one fails too, perhaps with another message, since messages name columns.
-/

namespace Relmap

open Text
open Outcome (Matched)
open Template (ofText ofArgument ofMoreArguments)

/-! ### Respellings -/

/-- How columns may be respelled, and an eye for characters that does not see it. -/
structure Respelling where
  names : String → String → Prop
  look : Char → Char
  refl : ∀ name, names name name
  same : ∀ {a b}, names a b → sameName a b = true
  blank : ∀ c, isBlank (look c) = isBlank c
  quoted : ∀ (d : Dialect) {a b}, names a b →
    (d.quotedName a).toList.map look = (d.quotedName b).toList.map look

namespace Respelling

/-- Every column keeps its spelling. -/
def exact : Respelling where
  names := Eq
  look := id
  refl _ := rfl
  same h := h ▸ sameName_self _
  blank _ := rfl
  quoted _ _ _ h := h ▸ rfl

/-- Columns change the case of their ASCII letters. -/
def caseless : Respelling where
  names a b := sameName a b = true
  look := Char.toLower
  refl := sameName_self
  same h := h
  blank := isBlank_toLower
  quoted d a b h := by
    have folded : foldCase (d.quotedName a) = foldCase (d.quotedName b) :=
      sameName_iff.mp (d.sameName_quotedName h)
    exact folded

variable (ρ : Respelling)

/-- Texts that look the same. -/
def Alike (s s' : String) : Prop := s.toList.map ρ.look = s'.toList.map ρ.look

variable {ρ}

theorem alike_column {a b : String} (h : ρ.names a b) (d : Dialect) (table : Option String)
    (rest : String) : ρ.Alike (d.column table a ++ rest) (d.column table b ++ rest) := by
  have quoted := ρ.quoted d h
  cases table with
  | none =>
    show (d.quotedName a ++ rest).toList.map ρ.look = (d.quotedName b ++ rest).toList.map ρ.look
    rw [String.toList_append, String.toList_append, List.map_append, List.map_append, quoted]
  | some q =>
    show (d.quotedName q ++ "." ++ d.quotedName a ++ rest).toList.map ρ.look =
      (d.quotedName q ++ "." ++ d.quotedName b ++ rest).toList.map ρ.look
    simp only [String.toList_append, List.map_append, quoted]

end Respelling

/-! ### Templates -/

/-- Templates with the same arguments whose texts look the same. -/
structure Template.Alike (ρ : Respelling) (t t' : Template) : Prop where
  signs : t.signs.map (Sign.mapChar ρ.look) = t'.signs.map (Sign.mapChar ρ.look)
  args : t.args = t'.args

namespace Template.Alike

variable {ρ : Respelling} {t t' u u' : Template}

protected theorem refl (t : Template) : t.Alike ρ t := ⟨rfl, rfl⟩

theorem ofText {s s' : String} (h : ρ.Alike s s') : (ofText s).Alike ρ (ofText s') := by
  refine ⟨?_, rfl⟩
  show (unmarked s.toList).map _ = (unmarked s'.toList).map _
  have seen (r : List Char) :
      (unmarked r : List (Sign Slot)).map (Sign.mapChar ρ.look) = unmarked (r.map ρ.look) := by
    rw [unmarked, unmarked, List.map_map, List.map_map]
    rfl
  rw [seen, seen, h]

theorem append (ht : t.Alike ρ t') (hu : u.Alike ρ u') : (t ++ u).Alike ρ (t' ++ u') := by
  refine ⟨?_, congrArg₂ (· ++ ·) ht.args hu.args⟩
  have shifted (n : Nat) (signs : List (Sign Slot)) :
      (signs.map (Sign.map (Slot.shift n))).map (Sign.mapChar ρ.look) =
        (signs.map (Sign.mapChar ρ.look)).map (Sign.map (Slot.shift n)) := by
    rw [List.map_map, List.map_map]
    exact List.map_congr_left fun x _ => by cases x <;> rfl
  rw [signs_append, signs_append, List.map_append, List.map_append, shifted, shifted, ht.signs,
    hu.signs, ht.args]

theorem between (h : t.Alike ρ t') {s s' : String} (hs : ρ.Alike s s') (e : String) :
    (Template.ofText s ++ t ++ Template.ofText e).Alike ρ
      (Template.ofText s' ++ t' ++ Template.ofText e) :=
  ((ofText hs).append h).append (.refl _)

theorem trimmed (h : t.Alike ρ t') : t.trimmed.Alike ρ t'.trimmed := by
  refine ⟨?_, h.args⟩
  show (trimMarked t.signs).map _ = (trimMarked t'.signs).map _
  rw [← trimMarked_mapChar ρ.blank, ← trimMarked_mapChar ρ.blank, h.signs]

theorem operand (h : t.Alike ρ t') (op : Connective) (kind : ClauseKind) :
    (t.operand op kind).Alike ρ (t'.operand op kind) := by
  unfold Template.operand
  split
  · split
    · exact h
    · exact h.trimmed.between rfl ") "
  · exact h

theorem joined (ht : t.Alike ρ t') (op : Connective) (hu : u.Alike ρ u') :
    (t.joined op u).Alike ρ (t'.joined op u') := ht.append ((ofText rfl).append hu)

theorem negation (h : t.Alike ρ t') (kind : ClauseKind) :
    (Template.negation kind t).Alike ρ (Template.negation kind t') := by
  cases kind with
  | nonempty => exact (ofText rfl).append h
  | connective inner => exact h.trimmed.between rfl ")) "
  | leaf => exact h.trimmed.between rfl ") "
  | not => exact h.trimmed.between rfl ") "

/-- Texts of templates that look the same look the same, wherever they stand. -/
theorem text (h : t.Alike ρ t') (n : Nat) : (t.text n).map ρ.look = (t'.text n).map ρ.look := by
  rw [Template.text, Template.text, ← expand_mapChar, ← expand_mapChar, h.signs]

end Template.Alike

/-! ### Conditions -/

/-- The right side of a comparison with its column respelled. -/
inductive Rhs.Respelled (ρ : Respelling) : Rhs → Rhs → Prop
  | same (r : Rhs) : Respelled ρ r r
  | column {table : Option String} {a b : String} (h : ρ.names a b) :
    Respelled ρ (.column ⟨table, a⟩) (.column ⟨table, b⟩)

/-- A test with its columns respelled. -/
inductive Leaf.Respelled (ρ : Respelling) : Leaf → Leaf → Prop
  | compare {a b operator : String} {r r' : Rhs} (h : ρ.names a b) (hr : r.Respelled ρ r') :
    Respelled ρ (.compare a operator r) (.compare b operator r')
  | between {a b : String} {low high : Argument} (h : ρ.names a b) :
    Respelled ρ (.between a low high) (.between b low high)
  | inList {a b : String} {first : Argument} {rest : List Argument} {negated : Bool}
      (h : ρ.names a b) : Respelled ρ (.inList a first rest negated) (.inList b first rest negated)
  | null {a b : String} {negated : Bool} (h : ρ.names a b) :
    Respelled ρ (.null a negated) (.null b negated)

/-- Queries that are the same but for what went wrong while they were put together, if anything
did. -/
inductive SelectShape.Agrees (s : SelectShape) : SelectShape → Prop
  | mk {e : Option Failure} (h : e.isSome = s.fault.isSome) : Agrees s { s with fault := e }

mutual

/-- A condition with its columns respelled. -/
inductive Clause.Respelled (ρ : Respelling) : Clause → Clause → Prop
  | same (c : Clause) : Clause.Respelled ρ c c
  | leaf {l l' : Leaf} (h : l.Respelled ρ l') : Clause.Respelled ρ (.leaf l) (.leaf l')
  | inQuery {a b : String} {query query' : SubQuery} {negated : Bool} (h : ρ.names a b)
      (hquery : SubQuery.Respelled ρ query query') :
    Clause.Respelled ρ (.inQuery a query negated) (.inQuery b query' negated)
  | many {op : Connective} {first first' second second' : Clause} {rest rest' : List Clause}
      (hfirst : Clause.Respelled ρ first first') (hsecond : Clause.Respelled ρ second second')
      (hrest : List.Forall₂ (Clause.Respelled ρ) rest rest') :
    Clause.Respelled ρ (.many op first second rest) (.many op first' second' rest')
  | not {operand operand' : Clause} (h : Clause.Respelled ρ operand operand') :
    Clause.Respelled ρ (.not operand) (.not operand')
  | nonempty {query query' : SubQuery} (h : SubQuery.Respelled ρ query query') :
    Clause.Respelled ρ (.nonempty query) (.nonempty query')

/-- A query with the columns of its condition respelled. -/
inductive SubQuery.Respelled (ρ : Respelling) : SubQuery → SubQuery → Prop
  | same (q : SubQuery) : SubQuery.Respelled ρ q q
  | select {shape shape' : SelectShape} {condition condition' : Condition}
      (hshape : shape.Agrees shape') (h : Condition.Respelled ρ condition condition') :
    SubQuery.Respelled ρ (.select shape condition) (.select shape' condition')

/-- The condition of a query with its columns respelled. -/
inductive Condition.Respelled (ρ : Respelling) : Condition → Condition → Prop
  | same (c : Condition) : Condition.Respelled ρ c c
  | broken (e e' : Failure) : Condition.Respelled ρ (.broken e) (.broken e')
  | holds {d : Dialect} {c c' : Clause} (h : Clause.Respelled ρ c c') :
    Condition.Respelled ρ (.holds d c) (.holds d c')

end

variable {ρ : Respelling}

theorem Clause.Respelled.kind {c c' : Clause} (h : c.Respelled ρ c') : c'.kind = c.kind := by
  cases h <;> rfl

theorem SelectShape.Agrees.width {s s' : SelectShape} (h : s.Agrees s') : s'.width = s.width := by
  cases h
  rfl

theorem SubQuery.Respelled.width {q q' : SubQuery} (h : q.Respelled ρ q') : q'.width = q.width := by
  cases h with
  | same => rfl
  | select hshape _ => exact hshape.width

/-! ### What respelled conditions write -/

theorem Leaf.Respelled.template {l l' : Leaf} (h : l.Respelled ρ l') (d : Dialect)
    (table : Option String) : (l.template d table).Alike ρ (l'.template d table) := by
  cases h with
  | @compare a b operator r r' h hr =>
    have left : ρ.Alike (d.column table a ++ " " ++ operator ++ " ")
        (d.column table b ++ " " ++ operator ++ " ") := by
      simpa only [String.append_assoc] using Respelling.alike_column h d table _
    refine Template.Alike.between ?_ left " "
    cases hr with
    | same => exact .refl _
    | @column q a b h =>
      have right := Respelling.alike_column h d (q <|> table) ""
      rw [String.append_empty, String.append_empty] at right
      exact .ofText right
  | between h =>
    have opened := Template.Alike.ofText (Respelling.alike_column h d table " BETWEEN ")
    exact (((opened.append (.refl _)).append (.refl _)).append (.refl _)).append (.refl _)
  | @inList _ _ _ _ negated h =>
    have opened := Template.Alike.ofText
      (Respelling.alike_column h d table (if negated then " NOT IN (" else " IN ("))
    exact ((opened.append (.refl _)).append (.refl _)).append (.refl _)
  | null h => exact .ofText (Respelling.alike_column h d table _)

theorem SelectShape.Agrees.template {s s' : SelectShape} (h : s.Agrees s')
    {x y : Except Failure Template} (hxy : Matched (Template.Alike ρ) x y) :
    Matched (Template.Alike ρ) (s.template x) (s'.template y) := by
  cases h with
  | @mk e h =>
    unfold SelectShape.template
    cases fault : s.fault with
    | some cause =>
      rw [fault] at h
      obtain ⟨cause', rfl⟩ := Option.isSome_iff_exists.mp h
      exact .error cause cause'
    | none =>
      rw [fault, Option.isSome_none, Option.isSome_eq_false_iff, Option.isNone_iff_eq_none] at h
      cases h
      refine hxy.bind fun t t' ht => ?_
      show Matched _ (s.dialect.window s.limit s.offset >>= _)
        (s.dialect.window s.limit s.offset >>= _)
      cases s.dialect.window s.limit s.offset with
      | error cause => exact .error cause cause
      | ok window => exact .ok (ht.between rfl _)

-- The recursion is on the first condition; the second one has the same form.
mutual

/-- **Respelling the columns of a condition does not show in what it writes**, to an eye that does
not see the respelling. -/
theorem Clause.Respelled.template (d : Dialect) (table : Option String) :
    ∀ {c c' : Clause}, c.Respelled ρ c' →
      Matched (Template.Alike ρ) (c.template d table) (c'.template d table)
  | _, _, .same _ => .refl .refl _
  | .leaf _, _, .leaf h => .ok (h.template d table)
  | .inQuery .., _, .inQuery h hquery =>
    (SubQuery.Respelled.template hquery).map fun _ _ ht =>
      ht.between (Respelling.alike_column h d table _) ") "
  | .many op first second rest, .many _ first' second' rest', .many hfirst hsecond hrest => by
    simp only [Clause.template]
    refine (Clause.Respelled.template d table hfirst).bind fun a a' ha => ?_
    refine (Clause.Respelled.template d table hsecond).bind fun b b' hb => ?_
    rw [hfirst.kind, hsecond.kind]
    exact Clause.respelled_joinedTemplate d table op hrest
      ((ha.operand op first.kind).joined op (hb.operand op second.kind))
  | .not operand, .not operand', .not h => by
    simp only [Clause.template, h.kind]
    exact (Clause.Respelled.template d table h).map fun _ _ ht => ht.negation operand.kind
  | .nonempty _, _, .nonempty h =>
    (SubQuery.Respelled.template h).map fun _ _ ht => ht.between rfl ") "
termination_by structural c => c

theorem Clause.respelled_joinedTemplate (d : Dialect) (table : Option String) (op : Connective) :
    ∀ {cs cs' : List Clause} {left left' : Template},
      List.Forall₂ (Clause.Respelled ρ) cs cs' → left.Alike ρ left' →
        Matched (Template.Alike ρ) (Clause.joinedTemplate d table op left cs)
          (Clause.joinedTemplate d table op left' cs')
  | [], _, _, _, .nil, hleft => .ok hleft
  | c :: rest, c' :: rest', left, left', .cons hc hrest, hleft => by
    simp only [Clause.joinedTemplate]
    refine (Clause.Respelled.template d table hc).bind fun a a' ha => ?_
    rw [hc.kind]
    exact Clause.respelled_joinedTemplate d table op hrest (hleft.joined op (ha.operand op c.kind))
termination_by structural cs => cs

theorem SubQuery.Respelled.template :
    ∀ {q q' : SubQuery}, q.Respelled ρ q' → Matched (Template.Alike ρ) q.template q'.template
  | _, _, .same _ => .refl .refl _
  | .select shape _, .select shape' _, .select hshape h => by
    have qualifier : shape'.qualifier = shape.qualifier := by
      cases hshape
      rfl
    simp only [SubQuery.template, qualifier]
    exact (hshape.template (Condition.Respelled.template shape.qualifier h)).map
      fun _ _ ht => ht.trimmed
termination_by structural q => q

theorem Condition.Respelled.template (table : Option String) :
    ∀ {c c' : Condition}, c.Respelled ρ c' →
      Matched (Template.Alike ρ) (Condition.template table c) (Condition.template table c')
  | _, _, .same _ => .refl .refl _
  | _, _, .broken e e' => .error e e'
  | .holds d _, _, .holds h =>
    (Clause.Respelled.template d table h).map fun _ _ ht => (Template.Alike.ofText rfl).append ht
termination_by structural c => c

end

end Relmap
