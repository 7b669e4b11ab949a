import Relmap.Text.Quoted

/-!
# Quoted texts read back

A quoted text runs from a quote character to the next one that is not doubled, and a doubled quote
in it stands for one. Read by this rule, a text between quotes gives what was put between them and
leaves what follows (`read?_wrap`), and nothing else is read as that text (`read?_eq_some`). The
same holds of a path: quoted texts with points between them (`readPath?_eq_some_iff`).
-/

namespace Relmap.Text.Quoted

variable {q : Char} {s t rest : List Char}

/-! ### One quoted text -/

/-- The rest of a quoted text up to the quote that closes it, which is the first one that is not
doubled, and what follows that quote. -/
def finish? (q : Char) : List Char → Option (List Char × List Char)
  | [] => none
  | [c] => if c = q then some ([], []) else none
  | c :: d :: r =>
    if c ≠ q then (finish? q (d :: r)).map fun (s, rest) => (c :: s, rest)
    else if d = q then (finish? q r).map fun (s, rest) => (q :: s, rest)
    else some ([], d :: r)

/-- A quoted text at the front of a text, and what follows it. -/
def read? (q : Char) : List Char → Option (List Char × List Char)
  | [] => none
  | c :: r => if c = q then finish? q r else none

/-- A character that is no quote stands for itself. -/
theorem finish?_cons {c : Char} (hc : c ≠ q) (t : List Char) :
    finish? q (c :: t) = (finish? q t).map fun (s, rest) => (c :: s, rest) := by
  cases t with
  | nil => simp [finish?, hc]
  | cons d r => rw [finish?, if_pos hc]

/-- What was put between quotes is read up to the closing one, if no other quote comes right after
it. -/
theorem finish?_double (hrest : rest.head? ≠ some q) (s : List Char) :
    finish? q (double q s ++ q :: rest) = some (s, rest) := by
  induction s with
  | nil =>
    cases rest with
    | nil => simp [double, finish?]
    | cons c r =>
      have hc : c ≠ q := by simpa using hrest
      simp [double, finish?, hc]
  | cons c s ih =>
    by_cases hc : c = q
    · subst hc
      simp [double, finish?, ih]
    · rw [double, if_neg hc, List.cons_append, finish?_cons hc, ih]
      rfl

/-- Only what was put between quotes is read so. -/
theorem finish?_eq_some (h : finish? q t = some (s, rest)) :
    t = double q s ++ q :: rest ∧ rest.head? ≠ some q := by
  fun_induction finish? q t generalizing s with
  | case1 => cases h
  | case2 =>
    cases h
    exact ⟨rfl, by simp⟩
  | case3 => cases h
  | case4 c d r hc ih =>
    obtain ⟨⟨s', rest'⟩, hread, heq⟩ := Option.map_eq_some_iff.mp h
    cases heq
    obtain ⟨ht, hrest⟩ := ih hread
    refine ⟨?_, hrest⟩
    rw [double, if_neg hc, ht]
    rfl
  | case5 c r hc ih =>
    obtain ⟨⟨s', rest'⟩, hread, heq⟩ := Option.map_eq_some_iff.mp h
    cases heq
    obtain ⟨ht, hrest⟩ := ih hread
    refine ⟨?_, hrest⟩
    rw [double, if_pos rfl, ht, Decidable.not_not.mp hc]
    rfl
  | case6 c d r hc hd =>
    cases h
    refine ⟨?_, by simpa using hd⟩
    rw [Decidable.not_not.mp hc]
    rfl

/-- A text that never ends a quoted text has all its quotes doubled. -/
theorem exists_double_of_finish? (h : finish? q t = none) : ∃ s, t = double q s := by
  fun_induction finish? q t with
  | case1 => exact ⟨[], rfl⟩
  | case2 => cases h
  | case3 c other => exact ⟨[c], by rw [double, if_neg other]; rfl⟩
  | case4 c d r other ih =>
    obtain ⟨s, hs⟩ := ih (Option.map_eq_none_iff.mp h)
    exact ⟨c :: s, by rw [double, if_neg other, hs]⟩
  | case5 c r quote ih =>
    obtain ⟨s, hs⟩ := ih (Option.map_eq_none_iff.mp h)
    refine ⟨q :: s, ?_⟩
    rw [double, if_pos rfl, ← hs, Decidable.not_not.mp quote]
  | case6 => cases h

theorem read?_wrap (hrest : rest.head? ≠ some q) (s : List Char) :
    read? q (wrap q s ++ rest) = some (s, rest) := by
  have h := finish?_double hrest s
  simpa [read?, wrap] using h

theorem read?_eq_some (h : read? q t = some (s, rest)) :
    t = wrap q s ++ rest ∧ rest.head? ≠ some q := by
  cases t with
  | nil => cases h
  | cons c r =>
    rw [read?] at h
    split at h
    · rename_i hc
      obtain ⟨rfl, hrest⟩ := finish?_eq_some h
      exact ⟨by simp [wrap, hc], hrest⟩
    · cases h

/-! ### Paths -/

/-- The parts of a path: quoted texts with points between them, and nothing else. -/
def readPath? (q : Char) (t : List Char) : Option (List (List Char)) :=
  match h : read? q t with
  | none => none
  | some (part, []) => some [part]
  | some (part, c :: r) =>
    have : r.length < t.length := by
      rw [(read?_eq_some h).1]
      simp [wrap]
      omega
    if c = '.' then (readPath? q r).map (part :: ·) else none
  termination_by t.length

/-- The text of a path: its parts between quotes, with points between them. -/
def path (q : Char) (parts : List (List Char)) : List Char :=
  ['.'].intercalate (parts.map (wrap q))

theorem path_cons_cons (q : Char) (part next : List Char) (parts : List (List Char)) :
    path q (part :: next :: parts) = wrap q part ++ '.' :: path q (next :: parts) := by
  simp [path, List.intercalate_cons_cons]

/-- Two paths with a point between them are one path. -/
theorem path_append {first second : List (List Char)} (hfirst : first ≠ []) (hsecond : second ≠ []) :
    path q (first ++ second) = path q first ++ '.' :: path q second := by
  induction first with
  | nil => exact absurd rfl hfirst
  | cons part rest ih =>
    by_cases hrest : rest = []
    · subst hrest
      obtain ⟨next, more, rfl⟩ := List.exists_cons_of_ne_nil hsecond
      simp [path]
    · obtain ⟨next, more, rfl⟩ := List.exists_cons_of_ne_nil hrest
      rw [List.cons_append, List.cons_append, path_cons_cons, ← List.cons_append, ih hrest,
        path_cons_cons, List.append_assoc, List.cons_append]

theorem readPath?_last {part : List Char} (h : read? q t = some (part, [])) :
    readPath? q t = some [part] := by
  rw [readPath?]
  split <;> simp_all

theorem readPath?_point {part r : List Char} (h : read? q t = some (part, '.' :: r)) :
    readPath? q t = (readPath? q r).map (part :: ·) := by
  rw [readPath?]
  split <;> simp_all

/-- The parts of a path are read back. -/
theorem readPath?_path (hq : q ≠ '.') :
    ∀ {parts : List (List Char)}, parts ≠ [] → readPath? q (path q parts) = some parts
  | [part], _ => by
    have hread : read? q (wrap q part ++ []) = some (part, []) := read?_wrap (by simp) part
    have htext : path q [part] = wrap q part ++ [] := by simp [path]
    rw [htext, readPath?_last hread]
  | part :: next :: parts, _ => by
    have hread : read? q (path q (part :: next :: parts)) =
        some (part, '.' :: path q (next :: parts)) := by
      rw [path_cons_cons]
      exact read?_wrap (by simpa using hq.symm) part
    rw [readPath?_point hread, readPath?_path hq (List.cons_ne_nil next parts)]
    rfl
  | [], h => absurd rfl h

/-- **A text is read as a path exactly if it is the text of that path.** -/
theorem readPath?_eq_some_iff (hq : q ≠ '.') {parts : List (List Char)} :
    readPath? q t = some parts ↔ parts ≠ [] ∧ t = path q parts := by
  constructor
  · intro h
    induction t using readPath?.induct q generalizing parts with
    | case1 t hread =>
      rw [readPath?] at h
      split at h <;> simp_all
    | case2 t part hread =>
      rw [readPath?_last hread] at h
      cases h
      refine ⟨List.cons_ne_nil _ _, ?_⟩
      simpa [path] using (read?_eq_some hread).1
    | case3 t part r hread _ ih =>
      rw [readPath?_point hread] at h
      obtain ⟨others, hothers, rfl⟩ := Option.map_eq_some_iff.mp h
      obtain ⟨hne, hr⟩ := ih hothers
      obtain ⟨next, more, rfl⟩ := List.exists_cons_of_ne_nil hne
      refine ⟨List.cons_ne_nil _ _, ?_⟩
      rw [path_cons_cons, ← hr]
      exact (read?_eq_some hread).1
    | case4 t part c r hread _ hc =>
      rw [readPath?] at h
      split at h <;> simp_all
  · rintro ⟨hparts, rfl⟩
    exact readPath?_path hq hparts

end Relmap.Text.Quoted
