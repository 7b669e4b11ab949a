import Relmap.Row

/-!
# Columns of a row by name

A row is read by the first column of a name, in any letter case. Appending a column changes no column
that is there (`Row.get?_push`). Setting one writes the first column of the name where it stands, or
appends a new one (`Row.Written`), so that it has the value and no other column is changed
(`Row.get?_set`).
-/

namespace Relmap

open Text (sameName sameName_iff)

/-! ### Names that agree -/

namespace Text

variable {a b : String}

/-- Names that agree are told from a third one alike. -/
theorem sameName_congr_left (h : sameName a b = true) (c : String) :
    sameName a c = sameName b c := by
  rw [sameName, sameName, sameName_iff.mp h]

theorem sameName_congr_right (h : sameName a b = true) (c : String) :
    sameName c a = sameName c b := by
  rw [sameName, sameName, sameName_iff.mp h]

end Text

namespace Row

variable {r : Row} {column name : String} {v : Value} {cs : List (String × Value)}

/-! ### Reading -/

theorem get?_cons (c : String × Value) (cs : List (String × Value)) (name : String) :
    (mk (c :: cs)).get? name =
      if sameName c.1 name = true then some c.2 else (mk cs).get? name := by
  rw [get?, List.find?_cons]
  cases sameName c.1 name <;> rfl

/-- What stands first is read first. -/
theorem get?_append (as cs : List (String × Value)) (name : String) :
    (mk (as ++ cs)).get? name = ((mk as).get? name).or ((mk cs).get? name) := by
  rw [get?, List.find?_append, Option.map_or]
  rfl

theorem get?_eq_none_iff : r.get? name = none ↔ ∀ c ∈ r.columns, sameName c.1 name = false := by
  simp [get?]

/-- A column is read if no other one has its name. -/
theorem get?_of_mem (distinct : r.columns.Pairwise fun a b => sameName a.1 b.1 = false)
    (mem : (column, v) ∈ r.columns) (same : sameName column name = true) :
    r.get? name = some v := by
  obtain ⟨cs⟩ := r
  obtain ⟨before, after, rfl⟩ := List.append_of_mem mem
  have skipped : (mk before).get? name = none := by
    rw [get?_eq_none_iff]
    intro c hc
    rw [← Text.sameName_congr_right same]
    exact (List.pairwise_append.mp distinct).2.2 c hc (column, v) List.mem_cons_self
  rw [get?_append, skipped, Option.none_or, get?_cons, if_pos same]

/-- **An appended column hides none** that is there. -/
theorem get?_push (r : Row) (column : String) (v : Value) (name : String) :
    (r.push column v).get? name =
      (r.get? name).or (if sameName column name = true then some v else none) := by
  rw [push, get?_append, get?_cons]
  rfl

/-! ### Writing -/

/-- The columns before and after one of them is written. -/
inductive Written (column : String) (v : Value) :
    List (String × Value) → List (String × Value) → Prop
  /-- The first column of the name keeps its place and its spelling. -/
  | there (before : List (String × Value)) (c : String × Value) (after : List (String × Value))
    (same : sameName c.1 column = true) (first : ∀ b ∈ before, sameName b.1 column = false) :
    Written column v (before ++ c :: after) (before ++ (c.1, v) :: after)
  /-- A column that is not there becomes the last one. -/
  | absent (cs : List (String × Value)) (missing : ∀ c ∈ cs, sameName c.1 column = false) :
    Written column v cs (cs ++ [(column, v)])

theorem written_setIn (column : String) (v : Value) (cs : List (String × Value)) :
    Written column v cs (setIn column v cs) := by
  induction cs with
  | nil => exact .absent [] fun _ h => nomatch h
  | cons c cs ih =>
    rw [setIn]
    by_cases same : sameName c.1 column = true
    · rw [if_pos same]
      exact .there [] c cs same fun _ h => nomatch h
    · have other : sameName c.1 column = false := Bool.eq_false_iff.mpr same
      rw [if_neg same]
      generalize setIn column v cs = written at ih
      cases ih with
      | there before k after found first =>
        exact .there (c :: before) k after found (List.forall_mem_cons.mpr ⟨other, first⟩)
      | absent _ missing => exact .absent (c :: cs) (List.forall_mem_cons.mpr ⟨other, missing⟩)

namespace Written

variable {cs cs' : List (String × Value)}

/-- **A column that is written is read as written, and every other one as before.** -/
theorem get? (h : Written column v cs cs') (name : String) :
    (mk cs').get? name = if sameName column name = true then some v else (mk cs).get? name := by
  have passed (cs : List (String × Value)) (missing : ∀ c ∈ cs, sameName c.1 column = false)
      (same : sameName column name = true) : (mk cs).get? name = none := by
    rw [get?_eq_none_iff]
    intro c hc
    rw [← Text.sameName_congr_right same]
    exact missing c hc
  cases h with
  | there before c after found first =>
    have alike := Text.sameName_congr_left found name
    rw [get?_append, get?_append, get?_cons, get?_cons, alike]
    by_cases same : sameName column name = true
    · rw [passed before first same, if_pos same, if_pos same, Option.none_or]
    · rw [if_neg same, if_neg same, if_neg same]
  | absent _ missing =>
    rw [get?_append, get?_cons]
    by_cases same : sameName column name = true
    · rw [passed cs missing same, if_pos same, if_pos same, Option.none_or]
    · rw [if_neg same, if_neg same]
      exact Option.or_none

/-- There is one column more if there was none of the name. -/
theorem length_eq (h : Written column v cs cs') :
    cs'.length = cs.length + if ((mk cs).get? column).isNone then 1 else 0 := by
  cases h with
  | there before c after same _ =>
    have found : (mk (before ++ c :: after)).get? column ≠ none := by
      rw [Ne, get?_eq_none_iff]
      intro missing
      have other := missing c (by simp)
      rw [same] at other
      cases other
    simp [found]
  | absent _ missing =>
    have unread : (mk cs).get? column = none := get?_eq_none_iff.mpr missing
    simp [unread]

end Written

theorem get?_set (r : Row) (column : String) (v : Value) (name : String) :
    (r.set column v).get? name = if sameName column name = true then some v else r.get? name :=
  (written_setIn column v r.columns).get? name

end Row

end Relmap
