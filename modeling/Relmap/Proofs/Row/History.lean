import Relmap.Proofs.Row

/-!
# Rows under any history

A row is written call after call: a column is appended without a look at those that are there, or
the first column of its name is set. Names may come in any letter case, and several columns may
have one name. Every row comes about in this way (`Row.exists_run`), and whatever has been written,
it is a map that is read by its first match. What a name has follows from the calls of that name
alone, one after the other (`Row.get?_run`): the value it was set to last, or the one that was
appended first if it was never set.

A column that is set keeps its place and its spelling, so the columns of a row are only ever added
to (`Row.names_set`). Columns that were all set have different names (`Row.distinct_run`). All of it
together is `Row.map_under_any_history`.
-/

namespace Relmap.Row

open Text (sameName)

variable {r : Row} {column name : String} {v : Value} {calls : List Call}

/-! ### Names of columns -/

/-- The names of the columns as they are spelled, in order. -/
def names (r : Row) : List String := r.columns.map (·.1)

/-- Whether there is a column of a name. -/
def has (r : Row) (name : String) : Bool := r.names.any (sameName · name)

/-- No two columns have one name. -/
def Distinct (r : Row) : Prop := r.names.Pairwise fun a b => sameName a b = false

theorem length_names (r : Row) : r.names.length = r.size := List.length_map _

theorem has_eq_false_iff : r.has name = false ↔ ∀ a ∈ r.names, sameName a name = false := by
  simp [has]

/-- A column that is there is read. -/
theorem has_iff : r.has name = true ↔ ∃ v, r.get? name = some v := by
  rw [← Option.isSome_iff_exists, Option.isSome_iff_ne_none, Ne, get?_eq_none_iff]
  simp [has, names]

theorem Written.names {cs cs' : List (String × Value)} (h : Written column v cs cs') :
    (mk cs').names = (mk cs).names ++ if (mk cs).has column then [] else [column] := by
  cases h with
  | there before c after same _ =>
    have found : (mk (before ++ c :: after)).has column = true := by
      simp [has, Row.names, same]
    simp [found, Row.names]
  | absent _ missing =>
    have unmet : (mk cs).has column = false := by
      rw [has_eq_false_iff]
      simpa [Row.names] using missing
    simp [unmet, Row.names]

/-- **A column that is set keeps its place and its spelling**; if there was none, it is the last. -/
theorem names_set (r : Row) (column : String) (v : Value) :
    (r.set column v).names = r.names ++ if r.has column then [] else [column] :=
  (written_setIn column v r.columns).names

theorem size_set (r : Row) (column : String) (v : Value) :
    (r.set column v).size = r.size + if r.has column then 0 else 1 := by
  rw [← length_names, ← length_names, names_set, List.length_append]
  by_cases found : r.has column = true <;> simp [found]

/-- Setting a column makes no second one of its name. -/
theorem Distinct.set (h : r.Distinct) (column : String) (v : Value) :
    (r.set column v).Distinct := by
  rw [Distinct, names_set]
  by_cases found : r.has column = true
  · rwa [if_pos found, List.append_nil]
  · have other := has_eq_false_iff.mp (Bool.eq_false_iff.mpr found)
    rw [if_neg found, List.pairwise_append]
    refine ⟨h, List.pairwise_singleton _ _, ?_⟩
    intro a ha b hb
    rw [List.mem_singleton.mp hb]
    exact other a ha

/-! ### Calls -/

/-- A call that writes a column. -/
inductive Call
  /-- Appends the column. -/
  | push (column : String) (v : Value)
  /-- Sets the first column of the name, or appends it. -/
  | set (column : String) (v : Value)

/-- Whether a call sets its column. -/
def Call.isSet : Call → Bool
  | .push .. => false
  | .set .. => true

/-- What a name has after a call, from what it had before. -/
def Call.valueAfter (name : String) (before : Option Value) : Call → Option Value
  | .push column v => if sameName column name = true then before.or (some v) else before
  | .set column v => if sameName column name = true then some v else before

/-- The row after a call. -/
def apply (r : Row) : Call → Row
  | .push column v => r.push column v
  | .set column v => r.set column v

/-- The row after some calls. -/
def run (r : Row) (calls : List Call) : Row := calls.foldl apply r

/-- What a name has after some calls, if it had nothing before. -/
def valueOf (name : String) (calls : List Call) : Option Value :=
  calls.foldl (Call.valueAfter name) none

theorem run_cons (r : Row) (c : Call) (calls : List Call) :
    r.run (c :: calls) = (r.apply c).run calls := rfl

theorem get?_apply (r : Row) (c : Call) (name : String) :
    (r.apply c).get? name = c.valueAfter name (r.get? name) := by
  cases c with
  | push column v =>
    rw [apply, get?_push, Call.valueAfter]
    by_cases same : sameName column name = true
    · rw [if_pos same, if_pos same]
    · rw [if_neg same, if_neg same, Option.or_none]
  | set column v => exact get?_set r column v name

/-- **What a name has depends on the calls of that name only**, and on what it had before. -/
theorem get?_run (r : Row) (calls : List Call) (name : String) :
    (r.run calls).get? name = calls.foldl (Call.valueAfter name) (r.get? name) := by
  induction calls generalizing r with
  | nil => rfl
  | cons c calls ih => rw [run_cons, ih, get?_apply, List.foldl_cons]

/-- Calls that set columns make no two of one name. -/
theorem distinct_run (h : r.Distinct) (sets : ∀ c ∈ calls, c.isSet = true) :
    (r.run calls).Distinct := by
  induction calls generalizing r with
  | nil => exact h
  | cons c calls ih =>
    obtain ⟨first, rest⟩ := List.forall_mem_cons.mp sets
    cases c with
    | push => cases first
    | set column v => exact ih (h.set column v) rest

/-- Every row has a history: its columns, appended one by one. -/
theorem exists_run (r : Row) : ∃ calls, empty.run calls = r := by
  have appended (cs : List (String × Value)) (r : Row) :
      r.run (cs.map fun c => .push c.1 c.2) = ⟨r.columns ++ cs⟩ := by
    induction cs generalizing r with
    | nil => simp [run]
    | cons c cs ih =>
      rw [List.map_cons, run_cons, ih]
      simp [apply, push]
  exact ⟨_, appended r.columns empty⟩

/-- **A row is a map that is read by its first match, whatever its history.** After any calls, in
any order and with names in any letter case, a name has what the calls of that name have left it. A
column that is set from there on has the value, and no other name has another value than before; it
is the column that is read by the name which is written, where it stands and as it is spelled, and
the row has one column more exactly if there was none. A column that is appended changes nothing for
a name that is there. A row of columns that were all set has no two of one name. -/
theorem map_under_any_history (made : empty.run calls = r) :
    (∀ name, r.get? name = valueOf name calls) ∧
    (∀ column v,
      (∀ name, (r.set column v).get? name =
        if sameName column name = true then some v else r.get? name) ∧
      Written column v r.columns (r.set column v).columns ∧
      (r.set column v).names = r.names ++ (if r.has column then [] else [column]) ∧
      (r.set column v).size = r.size + (if r.has column then 0 else 1)) ∧
    (∀ column v name, r.has name = true → (r.push column v).get? name = r.get? name) ∧
    ((∀ c ∈ calls, c.isSet = true) → r.Distinct) := by
  subst made
  refine ⟨get?_run empty calls, fun column v => ?_, fun column v name found => ?_, fun sets => ?_⟩
  · exact ⟨get?_set _ column v, written_setIn column v _, names_set _ column v, size_set _ column v⟩
  · obtain ⟨w, read⟩ := has_iff.mp found
    rw [get?_push, read, Option.some_or]
  · exact distinct_run List.Pairwise.nil sets

/-- Two columns of one name in different letter case were appended. Setting the name writes the
first of them, and appending it once more changes nothing that is read. Where both were set, there
is only one. -/
theorem duplicate_hidden_by_first :
    (∃ r, empty.run [.push "Id" (.int 1), .push "ID" (.int 2)] = r ∧
      (r.set "id" (.int 3)).columns = [("Id", .int 3), ("ID", .int 2)] ∧
      (r.set "id" (.int 3)).get? "iD" = some (.int 3) ∧
      r.has "iD" = true ∧ (r.push "iD" (.int 4)).get? "iD" = some (.int 1)) ∧
    (∀ c ∈ [Call.set "Id" (.int 1), .set "ID" (.int 2)], c.isSet = true) ∧
    (empty.run [.set "Id" (.int 1), .set "ID" (.int 2)]).Distinct := by
  constructor
  · have made : empty.run [.push "Id" (.int 1), .push "ID" (.int 2)] =
        ⟨[("Id", .int 1), ("ID", .int 2)]⟩ := rfl
    obtain ⟨values, sets, pushes, -⟩ := map_under_any_history made
    refine ⟨_, made, rfl, ?_, rfl, ?_⟩
    · exact (sets "id" (.int 3)).1 "iD"
    · exact (pushes "iD" (.int 4) "iD" rfl).trans (values "iD")
  · have sets : ∀ c ∈ [Call.set "Id" (.int 1), .set "ID" (.int 2)], c.isSet = true := by
      simp [Call.isSet]
    exact ⟨sets, (map_under_any_history rfl).2.2.2 sets⟩

end Relmap.Row
