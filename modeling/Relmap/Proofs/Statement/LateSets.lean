import Relmap.Proofs.Outcome
import Relmap.Proofs.Session

/-!
# Runs of sets

The arguments of a prepared statement are set in place, one call after another, and any call may
fail. A call that fails leaves the statement as it was, and one that is accepted changes the value
of its own argument and nothing else (`Prepared.put_spec`). So after any run of calls the statement
is the same but for the values of its arguments (`Prepared.Kept`), and the value of each is the one
that the last accepted call gave it, or else the one it had at first (`Prepared.args_after`). With
these values it goes to a connection in exactly one call, or in none as long as a value is missing
(`Connection.run_execute_recorded`).

The main statement is `Prepared.arguments_after_sets`.
-/

namespace Relmap

open Outcome

/-! ### Setting in place -/

namespace Argument

variable {a : Argument} {w : Value}

/-- The stored form of a value under an argument: as its field converts it, or as given. -/
def convert (a : Argument) (v : Value) : Except Failure Value :=
  match a.target with
  | .field f => f.toStored v
  | .raw _ => .ok v

theorem set_eq_convert (a : Argument) (v : Value) :
    a.set v = (a.convert v).map fun w => { a with value := some w } := by
  unfold set convert
  cases a.target <;> rfl

/-- The argument without its value. -/
def unset (a : Argument) : Argument := { a with value := none }

theorem stored_eq_ok : a.stored = .ok w ↔ a.value = some w := by
  unfold stored
  cases a.value with
  | none => exact ⟨fun h => (nomatch h), fun h => (nomatch h)⟩
  | some u => exact pure_eq_ok.trans Option.some_inj.symm

end Argument

namespace Prepared

variable {p q : Prepared} {i : Nat} {v : Value}

/-- The argument at a position from zero. -/
def argument (p : Prepared) (index : Nat) : Except Failure Argument :=
  match p.args[index]? with
  | some a => .ok a
  | none => .error (.statement (.argumentIndex index p.args.length))

/-- Sets an argument of a statement in place, by its position from zero. -/
def put (index : Nat) (v : Value) : Session Prepared Unit := do
  let p ← get
  let a ← Session.ofExcept (p.argument index)
  let w ← Session.ofExcept (a.convert v)
  set { p with args := p.args.set index { a with value := some w } }

theorem argument_eq_ok {a : Argument} : p.argument i = .ok a ↔ p.args[i]? = some a := by
  unfold argument
  cases p.args[i]? with
  | none => exact ⟨fun h => (nomatch h), fun h => (nomatch h)⟩
  | some b => exact pure_eq_ok.trans Option.some_inj.symm

theorem setArgument_eq_argument (p : Prepared) (i : Nat) (v : Value) :
    p.setArgument i v = p.argument i >>= fun a => (a.convert v).map fun w =>
      { p with args := p.args.set i { a with value := some w } } := by
  unfold setArgument argument
  cases p.args[i]? with
  | none => rfl
  | some a =>
    show (do return { p with args := p.args.set i (← a.set v) }) = (a.convert v).map _
    rw [a.set_eq_convert]
    cases a.convert v <;> rfl

/-- **Setting in place is setting**, and a failure leaves the statement as it was. -/
theorem run_put (p : Prepared) (i : Nat) (v : Value) :
    (put i v).run.run p =
      match p.setArgument i v with
      | .ok q => (.ok (), q)
      | .error e => (.error e, p) := by
  rw [put, Session.run_get_bind]
  cases found : p.argument i with
  | error e =>
    rw [Session.run_given_error rfl, setArgument_eq_argument, found]
    rfl
  | ok a =>
    have same : p.setArgument i v = (a.convert v).map fun w =>
        { p with args := p.args.set i { a with value := some w } } := by
      rw [setArgument_eq_argument, found]
      rfl
    rw [Session.run_given_ok rfl, same]
    cases a.convert v <;> rfl

/-- What setting an argument does: it gives the argument the stored form of the value, or it fails
and does nothing. -/
inductive Put (p : Prepared) (i : Nat) (v : Value) : Except Failure Unit × Prepared → Prop
  | accepted {a : Argument} {w : Value} (found : p.args[i]? = some a)
    (converted : a.convert v = .ok w) :
    Put p i v (.ok (), { p with args := p.args.set i { a with value := some w } })
  | refused (e : Failure) : Put p i v (.error e, p)

/-- Setting an argument does what `Put` says. -/
theorem put_spec (p : Prepared) (i : Nat) (v : Value) : p.Put i v ((put i v).run.run p) := by
  rw [run_put]
  cases done : p.setArgument i v with
  | error e => exact .refused e
  | ok q =>
    rw [setArgument_eq_argument] at done
    obtain ⟨a, found, done⟩ := bind_eq_ok.mp done
    obtain ⟨w, converted, rfl⟩ := map_eq_ok.mp done
    exact .accepted (argument_eq_ok.mp found) converted

/-- The second statement is the first one but for the values of its arguments. -/
structure Kept (p q : Prepared) : Prop where
  sql : q.sql = p.sql
  kind : q.kind = p.kind
  dialect : q.dialect = p.dialect
  table : q.table = p.table
  args : q.args.map Argument.unset = p.args.map Argument.unset

protected theorem Kept.refl (p : Prepared) : p.Kept p := ⟨rfl, rfl, rfl, rfl, rfl⟩

theorem Kept.trans {r : Prepared} (first : p.Kept q) (second : q.Kept r) : p.Kept r where
  sql := second.sql.trans first.sql
  kind := second.kind.trans first.kind
  dialect := second.dialect.trans first.dialect
  table := second.table.trans first.table
  args := second.args.trans first.args

theorem Kept.length (h : p.Kept q) : q.args.length = p.args.length := by
  rw [← List.length_map Argument.unset, h.args, List.length_map]

protected theorem Kept.symm (h : p.Kept q) : q.Kept p :=
  ⟨h.sql.symm, h.kind.symm, h.dialect.symm, h.table.symm, h.args.symm⟩

theorem Kept.exists_argument (h : p.Kept q) {b : Argument} (hb : q.args[i]? = some b) :
    ∃ a, p.args[i]? = some a := by
  obtain ⟨hi, -⟩ := List.getElem?_eq_some_iff.mp hb
  exact ⟨_, List.getElem?_eq_getElem (h.length ▸ hi)⟩

/-- A value has the same stored form under the arguments of both. -/
theorem Kept.convert (h : p.Kept q) {a b : Argument} (ha : p.args[i]? = some a)
    (hb : q.args[i]? = some b) : b.convert = a.convert := by
  have same := congrArg (fun l => l[i]?) h.args
  simp only [List.getElem?_map, ha, hb, Option.map_some, Option.some.injEq] at same
  have converts := congrArg Argument.convert same
  exact converts

/-- Setting an argument keeps the rest of the statement. -/
theorem Put.kept {out : Except Failure Unit × Prepared} (h : p.Put i v out) : p.Kept out.2 := by
  cases h with
  | @accepted a w found converted =>
    refine ⟨rfl, rfl, rfl, rfl, ?_⟩
    obtain ⟨hi, rfl⟩ := List.getElem?_eq_some_iff.mp found
    rw [List.map_set]
    apply List.ext_getElem?
    intro j
    by_cases hj : i = j
    · subst hj
      simp [hi, Argument.unset]
    · rw [List.getElem?_set_ne hj]
  | refused e => exact .refl p

/-- Setting an argument leaves the others as they were. -/
theorem Put.others {out : Except Failure Unit × Prepared} (h : p.Put i v out) {j : Nat}
    (hj : j ≠ i) : out.2.args[j]? = p.args[j]? := by
  cases h with
  | accepted found converted => exact List.getElem?_set_ne hj.symm
  | refused e => rfl

/-! ### Runs of sets -/

/-- The statement after calls that set arguments, each of which may fail. -/
def after (p : Prepared) (calls : List (Nat × Value)) : Prepared :=
  calls.foldl (fun p call => ((put call.1 call.2).run.run p).2) p

/-- The calls of a run that succeed. -/
def accepted (p : Prepared) : List (Nat × Value) → List (Nat × Value)
  | [] => []
  | call :: rest =>
    let out := (put call.1 call.2).run.run p
    if out.1.isOk then call :: accepted out.2 rest else accepted out.2 rest

/-- The value of the last call of a run that sets an argument and succeeds. -/
def lastSet? (p : Prepared) (calls : List (Nat × Value)) (i : Nat) : Option Value :=
  (p.accepted calls).reverse.lookup i

/-- **A run of sets keeps the statement** but for the values of its arguments. -/
theorem kept_after (p : Prepared) (calls : List (Nat × Value)) : p.Kept (p.after calls) := by
  induction calls generalizing p with
  | nil => exact .refl p
  | cons call rest ih => exact (put_spec p call.1 call.2).kept.trans (ih _)

end Prepared

/-- The second argument is the first one with the value of the last call that set it, if any did. -/
structure Argument.SetLast (a : Argument) (last? : Option Value) (b : Argument) : Prop where
  given : ∀ v, last? = some v → ∃ w, a.convert v = .ok w ∧ b.value = some w
  initial : last? = none → b.value = a.value

theorem Argument.SetLast.isSome_iff {a b : Argument} {last? : Option Value}
    (h : a.SetLast last? b) :
    b.value.isSome = true ↔ a.value.isSome = true ∨ last?.isSome = true := by
  cases last? with
  | none => simp [h.initial rfl]
  | some v =>
    obtain ⟨w, -, value⟩ := h.given v rfl
    simp [value]

theorem Argument.SetLast.trans {a b c : Argument} {first? second? : Option Value}
    (first : a.SetLast first? b) (convert : b.convert = a.convert)
    (second : b.SetLast second? c) : a.SetLast (second?.or first?) c := by
  cases second? with
  | none =>
    have same := second.initial rfl
    refine ⟨fun v h => ?_, fun h => same.trans (first.initial h)⟩
    obtain ⟨w, converted, value⟩ := first.given v h
    exact ⟨w, converted, same.trans value⟩
  | some u =>
    refine ⟨fun v h => ?_, fun h => (nomatch h)⟩
    rw [← convert]
    exact second.given v h

namespace Prepared

variable {p q : Prepared} {i : Nat} {v : Value}

/-- A call gives its value to the argument that it sets, if it succeeds. -/
theorem Put.setLast {j : Nat} {out : Except Failure Unit × Prepared} (h : p.Put j v out)
    {a : Argument} (ha : p.args[i]? = some a) :
    ∃ b, out.2.args[i]? = some b ∧
      a.SetLast (if out.1.isOk then [(j, v)].lookup i else none) b := by
  by_cases hj : i = j
  · subst hj
    cases h with
    | @accepted c w found converted =>
      obtain rfl : c = a := Option.some.inj (found.symm.trans ha)
      refine ⟨_, List.getElem?_set_self (List.getElem?_eq_some_iff.mp ha).1, fun u hu => ?_, ?_⟩
      · obtain rfl : v = u := by simpa [Except.isOk, Except.toBool] using hu
        exact ⟨w, converted, rfl⟩
      · simp [Except.isOk, Except.toBool]
    | refused _ => exact ⟨a, ha, fun u hu => (nomatch hu), fun _ => rfl⟩
  · have untouched : (if out.1.isOk then [(j, v)].lookup i else none) = none := by simp [hj]
    rw [untouched]
    exact ⟨a, (h.others hj).trans ha, fun u hu => (nomatch hu), fun _ => rfl⟩

/-- Whether a call succeeds is up to its own argument, whatever the values are. -/
theorem exists_setArgument_iff (h : p.Kept q) :
    (∃ r, q.setArgument i v = .ok r) ↔ ∃ a w, p.args[i]? = some a ∧ a.convert v = .ok w := by
  rw [setArgument_eq_argument]
  constructor
  · rintro ⟨r, done⟩
    obtain ⟨b, found, done⟩ := bind_eq_ok.mp done
    obtain ⟨w, converted, -⟩ := map_eq_ok.mp done
    have hb := argument_eq_ok.mp found
    obtain ⟨a, ha⟩ := h.exists_argument hb
    rw [h.convert ha hb] at converted
    exact ⟨a, w, ha, converted⟩
  · rintro ⟨a, w, ha, converted⟩
    obtain ⟨b, hb⟩ := h.symm.exists_argument ha
    rw [← h.convert ha hb] at converted
    exact ⟨_, bind_eq_ok.mpr ⟨b, argument_eq_ok.mpr hb, map_eq_ok.mpr ⟨w, converted, rfl⟩⟩⟩

/-- **The last set of an argument counts.** -/
theorem args_after (calls : List (Nat × Value)) {a : Argument} (h : p.args[i]? = some a) :
    ∃ b, (p.after calls).args[i]? = some b ∧ a.SetLast (p.lastSet? calls i) b := by
  induction calls generalizing p a with
  | nil => exact ⟨a, h, fun v h => (nomatch h), fun _ => rfl⟩
  | cons call rest ih =>
    have step := put_spec p call.1 call.2
    obtain ⟨b, hb, first⟩ := step.setLast h
    obtain ⟨c, hc, last⟩ := ih hb
    have whole := first.trans (step.kept.convert h hb) last
    refine ⟨c, hc, ?_⟩
    rw [lastSet?, accepted]
    cases ok : ((put call.1 call.2).run.run p).1.isOk with
    | true =>
      simp only [ok, if_true] at whole ⊢
      rw [List.reverse_cons, List.lookup_append]
      exact whole
    | false =>
      simp only [ok, Bool.false_eq_true, if_false, Option.or_none] at whole ⊢
      exact whole

/-! ### What is bound -/

/-- The bound values are the values of the arguments, in order. -/
theorem values_of_bindValues {values : List Value} (h : p.bindValues = .ok values) :
    values.length = p.args.length ∧
      ∀ (i : Nat) (a : Argument), p.args[i]? = some a → values[i]? = a.value := by
  have each := mapM_eq_ok.mp h
  have length := congrArg List.length each
  rw [List.length_map, List.length_map] at length
  refine ⟨length.symm, fun i a ha => ?_⟩
  have here := congrArg (fun l => l[i]?) each
  simp only [List.getElem?_map, ha, Option.map_some] at here
  obtain ⟨w, hw, stored⟩ := Option.map_eq_some_iff.mp here.symm
  rw [hw, Argument.stored_eq_ok.mp stored.symm]

/-- The values can be bound as soon as no argument is without one. -/
theorem exists_bindValues_iff :
    (∃ values, p.bindValues = .ok values) ↔
      ∀ (i : Nat) (a : Argument), p.args[i]? = some a → a.value.isSome = true := by
  constructor
  · rintro ⟨values, h⟩ i a ha
    obtain ⟨length, each⟩ := values_of_bindValues h
    obtain ⟨hi, -⟩ := List.getElem?_eq_some_iff.mp ha
    rw [← each i a ha, List.getElem?_eq_getElem (by omega)]
    rfl
  · intro all
    cases bound : p.bindValues with
    | ok values => exact ⟨values, rfl⟩
    | error e =>
      obtain ⟨before, a, after, split, -, unset⟩ := mapM_eq_error.mp bound
      have ha : p.args[before.length]? = some a := by simp [split]
      obtain ⟨w, value⟩ := Option.isSome_iff_exists.mp (all _ a ha)
      rw [Argument.stored_eq_ok.mpr value] at unset
      cases unset

end Prepared

/-! ### At the connection -/

namespace Connection

variable {σ α : Type}

/-- A call of a connection. -/
inductive Call
  | query (sql : String) (values : List Value)
  | update (sql : String) (values : List Value)

/-- The call for a statement of a kind: what selects is queried, what changes rows is an update. -/
def Call.of : StatementKind → String → List Value → Call
  | .select, sql, values | .selectLong, sql, values => .query sql values
  | .update, sql, values | .delete, sql, values => .update sql values

/-- What a call does, and a note of the call. -/
def noted (call : Call) (x : Session σ α) : Session (σ × List Call) α :=
  ExceptT.mk fun s =>
    let out := x.run.run s.1
    (out.1, out.2, s.2 ++ [call])

/-- A connection that keeps a list of its calls. -/
def recorded (c : Connection σ) : Connection (σ × List Call) where
  query sql values := noted (.query sql values) (c.query sql values)
  update sql values := noted (.update sql values) (c.update sql values)

variable {c : Connection σ} {p : Prepared} {s : σ} {calls : List Call}

theorem run_noted {β : Type} (call : Call) (x : Session σ α) (f : α → β) :
    (noted call x >>= fun a => pure (f a)).run.run (s, calls) =
      (((x >>= fun a => pure (f a)).run.run s).1, ((x >>= fun a => pure (f a)).run.run s).2,
        calls ++ [call]) := by
  have noted_run : (noted call x).run.run (s, calls) =
      ((x.run.run s).1, (x.run.run s).2, calls ++ [call]) := rfl
  simp only [ExceptT.run_bind, StateT.run_bind, noted_run]
  obtain ⟨out, t⟩ := x.run.run s
  cases out <;> rfl

/-- **A statement is run in exactly one call**, by its kind, with its text and its values. -/
theorem run_execute_recorded {values : List Value} (h : p.bindValues = .ok values) :
    (c.recorded.execute p).run.run (s, calls) =
      (((c.execute p).run.run s).1, ((c.execute p).run.run s).2,
        calls ++ [.of p.kind p.sql values]) := by
  rw [execute, execute, Session.run_given_ok h, Session.run_given_ok h]
  cases p.kind with
  | select => exact run_noted _ _ _
  | selectLong => exact run_noted _ _ _
  | update => exact run_noted _ _ _
  | delete => exact run_noted _ _ _

/-- Nothing is called as long as a value is missing. -/
theorem run_execute_of_error {e : Failure} (h : p.bindValues = .error e) :
    (c.execute p).run.run s = (.error e, s) :=
  Session.run_given_error h

end Connection

namespace Prepared

variable {p : Prepared} {i : Nat} {calls : List (Nat × Value)}

theorem isSome_lastSet?_iff :
    (p.lastSet? calls i).isSome = true ↔ ∃ v, (i, v) ∈ p.accepted calls := by
  rw [lastSet?, List.lookup_isSome_iff]
  constructor
  · rintro ⟨⟨j, v⟩, hmem, same⟩
    obtain rfl : i = j := by simpa using same
    exact ⟨v, List.mem_reverse.mp hmem⟩
  · rintro ⟨v, hmem⟩
    exact ⟨(i, v), List.mem_reverse.mpr hmem, by simp⟩

/-- **Arguments keep their identity over any run of sets.** The statement stays the same but for the
values of its arguments. A call fails or succeeds as its own argument has it; if it fails nothing
changes, and if it succeeds no other argument does. The values can be bound just if each argument
had one or was set, and then each is the stored form of the value of the last call that set it, or
else the first one. The statement goes to a connection in one call by its kind, with its text and
these values, or in none. -/
theorem arguments_after_sets (p : Prepared) (calls : List (Nat × Value)) :
    p.Kept (p.after calls) ∧ (p.after calls).args.length = p.args.length ∧
    (∀ (i : Nat) (v : Value),
      ((∃ q, (p.after calls).setArgument i v = .ok q) ↔
        ∃ a w, p.args[i]? = some a ∧ a.convert v = .ok w) ∧
      (∀ e, (p.after calls).setArgument i v = .error e →
        (put i v).run.run (p.after calls) = (.error e, p.after calls)) ∧
      ∀ q, (p.after calls).setArgument i v = .ok q →
        (put i v).run.run (p.after calls) = (.ok (), q) ∧
        ∀ j, j ≠ i → q.args[j]? = (p.after calls).args[j]?) ∧
    ((∃ values, (p.after calls).bindValues = .ok values) ↔
      ∀ (i : Nat) (a : Argument), p.args[i]? = some a →
        a.value.isSome = true ∨ ∃ v, (i, v) ∈ p.accepted calls) ∧
    (∀ values, (p.after calls).bindValues = .ok values → values.length = p.args.length ∧
      ∀ (i : Nat) (a : Argument), p.args[i]? = some a →
        (∀ v, p.lastSet? calls i = some v → ∃ w, a.convert v = .ok w ∧ values[i]? = some w) ∧
        (p.lastSet? calls i = none → values[i]? = a.value)) ∧
    ∀ (σ : Type) (c : Connection σ) (s : σ) (made : List Connection.Call),
      (∀ values, (p.after calls).bindValues = .ok values →
        (c.recorded.execute (p.after calls)).run.run (s, made) =
          (((c.execute (p.after calls)).run.run s).1, ((c.execute (p.after calls)).run.run s).2,
            made ++ [.of p.kind p.sql values])) ∧
      ∀ e, (p.after calls).bindValues = .error e →
        (c.recorded.execute (p.after calls)).run.run (s, made) = (.error e, s, made) := by
  have kept := p.kept_after calls
  refine ⟨kept, kept.length, fun i v => ⟨exists_setArgument_iff kept, ?_, ?_⟩, ?_, ?_, ?_⟩
  · intro e failed
    rw [run_put, failed]
  · intro q done
    have step := put_spec (p.after calls) i v
    rw [run_put, done] at step ⊢
    exact ⟨rfl, fun j hj => step.others hj⟩
  · rw [exists_bindValues_iff]
    constructor
    · intro all i a ha
      obtain ⟨b, hb, last⟩ := args_after calls ha
      rw [← isSome_lastSet?_iff]
      exact last.isSome_iff.mp (all i b hb)
    · intro all i b hb
      obtain ⟨a, ha⟩ := kept.exists_argument hb
      obtain ⟨b', hb', last⟩ := args_after calls ha
      obtain rfl : b = b' := Option.some.inj (hb.symm.trans hb')
      have has := all i a ha
      rw [← isSome_lastSet?_iff] at has
      exact last.isSome_iff.mpr has
  · intro values bound
    obtain ⟨length, each⟩ := values_of_bindValues bound
    refine ⟨length.trans kept.length, fun i a ha => ?_⟩
    obtain ⟨b, hb, last⟩ := args_after calls ha
    rw [each i b hb]
    exact ⟨last.given, last.initial⟩
  · intro σ c s made
    refine ⟨fun values bound => ?_, fun e unbound => Connection.run_execute_of_error unbound⟩
    rw [← kept.kind, ← kept.sql]
    exact Connection.run_execute_recorded bound

end Prepared

end Relmap
