import Relmap.Proofs.Statement.Run
import Relmap.Proofs.Statement.Spelling

/-!
# Calls with columns respelled

Columns that agree up to letter case are columns of one field (`Table.field?_of_sameName`). So a test
with its columns respelled is checked in the same way and makes the same condition with the columns
respelled (`Table.clause_matched`), and a run of such calls keeps the stacks related
(`Where.Respelled.run`).
-/

namespace Relmap

open Text
open Outcome (Matched)

variable {ρ : Respelling}

/-! ### Columns of a table -/

namespace Table

variable {t : Table} {a b : String}

/-- **A column is found in any letter case.** -/
theorem field?_of_sameName (h : sameName a b = true) : t.field? a = t.field? b := by
  have folded : foldCase a = foldCase b := sameName_iff.mp h
  simp only [field?, sameName, folded]

theorem field_matched (h : sameName a b = true) : Matched Eq (t.field a) (t.field b) := by
  unfold field
  rw [field?_of_sameName h]
  cases t.field? b with
  | none => exact .error _ _
  | some f => exact .ok rfl

/-- A column that is looked up only. -/
theorem looked_up_matched (h : sameName a b = true) :
    Matched Eq (discard (t.field a)) (discard (t.field b)) :=
  (field_matched h).map fun _ _ _ => rfl

theorem comparable_matched (h : sameName a b = true) :
    Matched Eq (t.comparable a) (t.comparable b) := by
  refine (field_matched h).bind_eq fun f => ?_
  by_cases comparable : f.converter.codec.isComparable = true
  · rw [if_pos comparable, if_pos comparable]
    exact .ok rfl
  · rw [if_neg comparable, if_neg comparable]
    exact .error _ _

end Table

/-! ### Tests -/

/-- An operand with its column respelled, if it is one of the table. -/
inductive Operand.Respelled (ρ : Respelling) : Operand → Operand → Prop
  | same (o : Operand) : Respelled ρ o o
  | column {a b : String} (h : ρ.names a b) : Respelled ρ (.column ⟨none, a⟩) (.column ⟨none, b⟩)

/-- A test with columns respelled: its own, the one on its right side, and those in its query. -/
inductive Test.Respelled (ρ : Respelling) : Test → Test → Prop
  | same (x : Test) : Respelled ρ x x
  | compare {op : CompareOp} {a b : String} {o o' : Operand} (h : ρ.names a b)
      (ho : o.Respelled ρ o') : Respelled ρ (.compare op a o) (.compare op b o')
  | idEquals {o o' : Operand} (ho : o.Respelled ρ o') : Respelled ρ (.idEquals o) (.idEquals o')
  | between {a b : String} {low high : Operand} (h : ρ.names a b) :
    Respelled ρ (.between a low high) (.between b low high)
  | inList {a b : String} {operands : List Operand} {negated : Bool} (h : ρ.names a b) :
    Respelled ρ (.inList a operands negated) (.inList b operands negated)
  | inQuery {a b : String} {query query' : SubQuery} {negated : Bool} (h : ρ.names a b)
      (hquery : query.Respelled ρ query') :
    Respelled ρ (.inQuery a query negated) (.inQuery b query' negated)
  | null {a b : String} {negated : Bool} (h : ρ.names a b) :
    Respelled ρ (.null a negated) (.null b negated)
  | nonempty {query query' : SubQuery} {negated : Bool} (hquery : query.Respelled ρ query') :
    Respelled ρ (.nonempty query negated) (.nonempty query' negated)

namespace Table

variable {t : Table} {a b : String}

theorem rhs_matched {o o' : Operand} (h : o.Respelled ρ o') (f : Field) :
    Matched (Rhs.Respelled ρ) (t.rhs f o) (t.rhs f o') := by
  cases h with
  | same => exact .refl .same _
  | column h =>
    show Matched _ (Except.map _ (t.field _) >>= _) (Except.map _ (t.field _) >>= _)
    exact (looked_up_matched (ρ.same h)).bind_eq fun _ => .ok (.column h)

theorem compare_matched {op : CompareOp} {o o' : Operand} (h : ρ.names a b)
    (ho : o.Respelled ρ o') :
    Matched (Clause.Respelled ρ) (t.compare op a o) (t.compare op b o') := by
  refine (comparable_matched (ρ.same h)).bind_eq fun f => ?_
  exact (rhs_matched ho f).bind fun r r' hr => .ok (.leaf (.compare h hr))

/-- **A test with its columns respelled makes the same condition**, with the columns respelled, or
fails as well. -/
theorem clause_matched {x x' : Test} (h : x.Respelled ρ x') :
    Matched (Clause.Respelled ρ) (t.clause x) (t.clause x') := by
  cases h with
  | same => exact .refl .same _
  | compare h ho => exact compare_matched h ho
  | idEquals ho =>
    unfold clause
    cases t.idField? with
    | none => exact .error _ _
    | some f => exact compare_matched (ρ.refl _) ho
  | between h =>
    refine (comparable_matched (ρ.same h)).bind_eq fun f => ?_
    refine .bind_same _ fun low => .bind_same _ fun high => ?_
    exact .ok (.leaf (.between h))
  | @inList a b operands negated h =>
    refine (comparable_matched (ρ.same h)).bind_eq fun f => .bind_same _ fun args => ?_
    cases args with
    | nil => exact .error _ _
    | cons first rest => exact .ok (.leaf (.inList h))
  | @inQuery a b query query' negated h hquery =>
    refine (looked_up_matched (ρ.same h)).bind_eq fun _ => ?_
    unfold Clause.ofQuery
    rw [hquery.width]
    by_cases single : query.width = 1
    · rw [if_pos single, if_pos single]
      exact .ok (.inQuery h hquery)
    · rw [if_neg single, if_neg single]
      exact .error _ _
  | null h => exact (looked_up_matched (ρ.same h)).bind_eq fun _ => .ok (.leaf (.null h))
  | @nonempty query query' negated hquery =>
    cases negated with
    | false => exact .ok (.nonempty hquery)
    | true => exact .ok (.not (.nonempty hquery))

end Table

/-! ### Calls -/

/-- A call with the columns of its test respelled. -/
inductive WhereCall.Respelled (ρ : Respelling) : WhereCall → WhereCall → Prop
  | same (call : WhereCall) : Respelled ρ call call
  | test {x x' : Test} (h : x.Respelled ρ x') : Respelled ρ (.test x) (.test x')

/-- A waiting part with columns respelled. -/
inductive Pending.Respelled (ρ : Respelling) : Pending → Pending → Prop
  | connective {op : Connective} {left left' : Clause} (h : left.Respelled ρ left') :
    Respelled ρ (.connective op left) (.connective op left')
  | not : Respelled ρ .not .not

/-- Two conditions that are put together in the same way, with columns respelled on both stacks. -/
structure Where.Respelled (ρ : Respelling) (w w' : Where) : Prop where
  dialect : w'.dialect = w.dialect
  table : w'.table = w.table
  clauses : List.Forall₂ (Clause.Respelled ρ) w.clauses w'.clauses
  pending : List.Forall₂ (Pending.Respelled ρ) w.pending w'.pending
  fault : w'.fault.isSome = w.fault.isSome

/-- What waits is taken up in the same way. -/
theorem Pending.foldl_join_respelled {ps ps' : List Pending}
    (h : List.Forall₂ (Pending.Respelled ρ) ps ps') {c c' : Clause} (hc : c.Respelled ρ c') :
    (ps.foldl Pending.join c).Respelled ρ (ps'.foldl Pending.join c') := by
  induction h generalizing c c' with
  | nil => exact hc
  | cons head _ ih =>
    refine ih ?_
    cases head with
    | connective h => exact .many h hc .nil
    | not => exact .not hc

/-- Conditions under a connective. -/
theorem Clause.connected_matched (op : Connective) {cs cs' : List Clause}
    (h : List.Forall₂ (Clause.Respelled ρ) cs cs') :
    Matched (Clause.Respelled ρ) (Clause.connected op cs) (Clause.connected op cs') := by
  cases h with
  | nil => exact .error _ _
  | cons hfirst hmore =>
    cases hmore with
    | nil => exact .error _ _
    | cons hsecond hrest => exact .ok (.many hfirst hsecond hrest)

/-- A first failure is kept, whichever it is. -/
theorem isSome_firstFailure (o : Option Failure) (e : Failure) : (o <|> some e).isSome = true := by
  cases o <;> rfl

namespace Where.Respelled

variable {w w' : Where}

theorem fail (h : w.Respelled ρ w') (e e' : Failure) : (w.fail e).Respelled ρ (w'.fail e') :=
  { h with fault := (isSome_firstFailure _ _).trans (isSome_firstFailure _ _).symm }

theorem add (h : w.Respelled ρ w') {c c' : Clause} (hc : c.Respelled ρ c') :
    (w.add c).Respelled ρ (w'.add c') :=
  { h with
    clauses := .cons (Pending.foldl_join_respelled h.pending hc) h.clauses
    pending := .nil }

theorem connect (h : w.Respelled ρ w') (op : Connective) :
    (w.connect op).Respelled ρ (w'.connect op) := by
  unfold Where.connect
  have clauses := h.clauses
  cases stack : w.clauses with
  | nil =>
    rw [stack] at clauses
    rw [List.forall₂_nil_left_iff.mp clauses]
    exact h.fail _ _
  | cons left rest =>
    rw [stack] at clauses
    obtain ⟨left', rest', hleft, hrest, stack'⟩ := List.forall₂_cons_left_iff.mp clauses
    rw [stack']
    exact { h with clauses := hrest, pending := .cons (.connective hleft) h.pending }

theorem not (h : w.Respelled ρ w') : w.not.Respelled ρ w'.not :=
  { h with pending := .cons .not h.pending }

theorem combine (h : w.Respelled ρ w') (op : Connective) (count : Nat) :
    (w.combine op count).Respelled ρ (w'.combine op count) := by
  unfold Where.combine
  -- Both stacks have as many conditions, so that there are too few on both or on neither.
  rw [← h.clauses.length_eq]
  by_cases few : count < 2 ∨ w.clauses.length < count
  · rw [if_pos few, if_pos few]
    exact h.fail _ _
  · rw [if_neg few, if_neg few]
    have last := List.forall₂_reverse_iff.mpr (List.forall₂_take count h.clauses)
    have rest : Where.Respelled ρ { w with clauses := w.clauses.drop count }
        { w' with clauses := w'.clauses.drop count } :=
      { h with clauses := List.forall₂_drop count h.clauses }
    rcases (Clause.connected_matched op last).ok_or_error with
      ⟨c, c', made, made', hc⟩ | ⟨e, e', failed, failed'⟩
    · rw [made, made']
      exact rest.add hc
    · rw [failed, failed']
      exact h.fail e e'

theorem test (h : w.Respelled ρ w') {x x' : Test} (hx : x.Respelled ρ x') :
    (w.test x).Respelled ρ (w'.test x') := by
  unfold Where.test
  rw [h.table]
  rcases (Table.clause_matched hx).ok_or_error with
    ⟨c, c', made, made', hc⟩ | ⟨e, e', failed, failed'⟩
  · rw [made, made']
    exact h.add hc
  · rw [failed, failed']
    exact h.fail e e'

/-- A call keeps the stacks related. -/
theorem apply (h : w.Respelled ρ w') {call call' : WhereCall} (hcall : call.Respelled ρ call') :
    (w.apply call).Respelled ρ (w'.apply call') := by
  cases hcall with
  | test hx => exact h.test hx
  | same =>
    cases call with
    | test x => exact h.test (.same x)
    | connect op => exact h.connect op
    | not => exact h.not
    | combine op count => exact h.combine op count

/-- **A run of calls keeps the stacks related.** -/
theorem run (h : w.Respelled ρ w') {calls calls' : List WhereCall}
    (hcalls : List.Forall₂ (WhereCall.Respelled ρ) calls calls') :
    (w.run calls).Respelled ρ (w'.run calls') := by
  induction hcalls generalizing w w' with
  | nil => exact h
  | cons head _ ih => exact ih (h.apply head)

/-- The finished conditions are related too, or both are not put together well. -/
theorem condition (h : w.Respelled ρ w') : w.condition.Respelled ρ w'.condition := by
  obtain ⟨d, t, clauses, pending, fault⟩ := w
  obtain ⟨d', t', clauses', pending', fault'⟩ := w'
  obtain ⟨same, -, hclauses, hpending, hfault⟩ := h
  cases same
  cases fault with
  | some e =>
    obtain ⟨e', rfl⟩ := Option.isSome_iff_exists.mp hfault
    exact .broken e e'
  | none =>
    cases fault' with
    | some e' => cases hfault
    | none =>
      cases hpending with
      | cons _ _ => exact .broken _ _
      | nil =>
        cases hclauses with
        | nil => exact .broken _ _
        | cons head tail =>
          cases tail with
          | nil => exact .holds head
          | cons _ _ => exact .broken _ _

end Where.Respelled

end Relmap
