import Relmap.Proofs.Text.Trim
import Relmap.Text.Marked

/-!
# Marked texts: writing and trimming

What a marked text becomes depends on what its marks stand for, its shape does not. If every mark
stands for a text whose last character is no blank, then trimming a marked text and trimming what it
becomes are the same (`trimEnd_expand`).
-/

namespace Relmap.Text

variable {α β : Type}

/-! ### What the signs stand for -/

@[simp] theorem expand_nil (f : α → List Char) : expand f [] = [] := rfl

@[simp] theorem expand_char (f : α → List Char) (c : Char) (s : List (Sign α)) :
    expand f (.char c :: s) = c :: expand f s := rfl

@[simp] theorem expand_mark (f : α → List Char) (a : α) (s : List (Sign α)) :
    expand f (.mark a :: s) = f a ++ expand f s := rfl

@[simp] theorem expand_append (f : α → List Char) (s t : List (Sign α)) :
    expand f (s ++ t) = expand f s ++ expand f t := List.flatMap_append

@[simp] theorem expand_unmarked (f : α → List Char) (s : List Char) :
    expand f (unmarked s) = s := by
  induction s with
  | nil => rfl
  | cons c r ih => exact congrArg (c :: ·) ih

@[simp] theorem marks_nil : marks ([] : List (Sign α)) = [] := rfl

@[simp] theorem marks_char (c : Char) (s : List (Sign α)) : marks (.char c :: s) = marks s := rfl

@[simp] theorem marks_mark (a : α) (s : List (Sign α)) : marks (.mark a :: s) = a :: marks s := rfl

@[simp] theorem marks_append (s t : List (Sign α)) : marks (s ++ t) = marks s ++ marks t :=
  List.filterMap_append

@[simp] theorem marks_unmarked (s : List Char) : marks (unmarked s : List (Sign α)) = [] := by
  induction s with
  | nil => rfl
  | cons c r ih => exact ih

/-! ### Other marks -/

/-- The sign with another mark. -/
def Sign.map (g : α → β) : Sign α → Sign β
  | .char c => .char c
  | .mark a => .mark (g a)

theorem expand_map (f : β → List Char) (g : α → β) (s : List (Sign α)) :
    expand f (s.map (Sign.map g)) = expand (f ∘ g) s := by
  induction s with
  | nil => rfl
  | cons x r ih => cases x <;> simp [Sign.map, ih]

theorem marks_map (g : α → β) (s : List (Sign α)) :
    marks (s.map (Sign.map g)) = (marks s).map g := by
  induction s with
  | nil => rfl
  | cons x r ih => cases x <;> simp [Sign.map, ih]

@[simp] theorem map_unmarked (g : α → β) (s : List Char) :
    (unmarked s).map (Sign.map g) = unmarked s := by
  simp [unmarked, Sign.map]

/-! ### Marks replaced one by one -/

/-- The text with texts in the places of the marks, in order. -/
def replaceMarks : List (Sign α) → List (List Char) → List Char
  | [], _ => []
  | .char c :: r, texts => c :: replaceMarks r texts
  | .mark _ :: r, [] => replaceMarks r []
  | .mark _ :: r, text :: texts => text ++ replaceMarks r texts

theorem replaceMarks_marks (f : α → List Char) (s : List (Sign α)) :
    replaceMarks s ((marks s).map f) = expand f s := by
  induction s with
  | nil => rfl
  | cons x r ih => cases x <;> simp [replaceMarks, ih]

theorem replaceMarks_map (g : α → β) (s : List (Sign α)) (texts : List (List Char)) :
    replaceMarks (s.map (Sign.map g)) texts = replaceMarks s texts := by
  induction s generalizing texts with
  | nil => rfl
  | cons x r ih =>
    cases x with
    | char c => exact congrArg (c :: ·) (ih texts)
    | mark a =>
      cases texts with
      | nil => exact ih []
      | cons text texts => exact congrArg (text ++ ·) (ih texts)

/-! ### Trimming -/

/-- A blank that stands for itself. -/
def Sign.isBlank : Sign α → Bool
  | .char c => Text.isBlank c
  | .mark _ => false

/-- The marked text without the blanks at its end. -/
def trimMarked (s : List (Sign α)) : List (Sign α) := s.rdropWhile Sign.isBlank

/-- Trimming a marked text is trimming what it becomes, if no mark becomes something that could be
trimmed. -/
theorem trimEnd_expand {f : α → List Char} {s : List (Sign α)}
    (h : ∀ a ∈ marks s, EndsVisibly (f a)) :
    trimEnd (expand f s) = expand f (trimMarked s) := by
  induction s using List.reverseRecOn with
  | nil => rfl
  | append_singleton r x ih =>
    rw [expand_append]
    cases x with
    | char c =>
      by_cases hc : isBlank c = true
      · rw [trimMarked, List.rdropWhile_concat_pos _ _ _ (by simpa [Sign.isBlank] using hc)]
        rw [expand_char, expand_nil, trimEnd_concat_blank hc]
        exact ih fun a ha => h a (by simp [ha])
      · rw [trimMarked, List.rdropWhile_concat_neg _ _ _ (by simpa [Sign.isBlank] using hc)]
        rw [expand_append, expand_char, expand_nil, trimEnd_concat_visible (by simpa using hc)]
    | mark a =>
      rw [trimMarked, List.rdropWhile_concat_neg _ _ _ (by simp [Sign.isBlank])]
      rw [expand_append, expand_mark, expand_nil, List.append_nil]
      exact (h a (by simp)).trimEnd_append _

/-- Trimming drops blanks and nothing else. -/
theorem trimMarked_append_blanks (s : List (Sign α)) :
    ∃ b : List (Sign α), s = trimMarked s ++ b ∧ ∀ x ∈ b, x.isBlank = true := by
  refine ⟨(s.reverse.takeWhile Sign.isBlank).reverse, ?_, fun x hx => ?_⟩
  · rw [trimMarked, List.rdropWhile, ← List.reverse_append, List.takeWhile_append_dropWhile,
      List.reverse_reverse]
  · exact List.mem_takeWhile_imp (List.mem_reverse.mp hx)

@[simp] theorem marks_trimMarked (s : List (Sign α)) : marks (trimMarked s) = marks s := by
  obtain ⟨b, hs, hb⟩ := trimMarked_append_blanks s
  have hmarks : marks b = [] := by
    rw [marks, List.filterMap_eq_nil_iff]
    intro x hx
    cases x with
    | char c => rfl
    | mark a => exact absurd (hb _ hx) (by simp [Sign.isBlank])
  conv_rhs => rw [hs, marks_append, hmarks, List.append_nil]

theorem trimMarked_map (g : α → β) (s : List (Sign α)) :
    trimMarked (s.map (Sign.map g)) = (trimMarked s).map (Sign.map g) := by
  have hblank : Sign.isBlank ∘ Sign.map g = (Sign.isBlank : Sign α → Bool) := by
    funext x
    cases x <;> rfl
  rw [trimMarked, trimMarked, List.rdropWhile, List.rdropWhile, ← List.map_reverse,
    List.dropWhile_map, hblank, List.map_reverse]

/-! ### Other characters -/

/-- The sign with another character. -/
def Sign.mapChar (g : Char → Char) : Sign α → Sign α
  | .char c => .char (g c)
  | .mark a => .mark a

theorem expand_mapChar (f : α → List Char) (g : Char → Char) (s : List (Sign α)) :
    expand (fun a => (f a).map g) (s.map (Sign.mapChar g)) = (expand f s).map g := by
  induction s with
  | nil => rfl
  | cons x r ih => cases x <;> simp [Sign.mapChar, ih]

theorem trimMarked_mapChar {g : Char → Char} (h : ∀ c, isBlank (g c) = isBlank c)
    (s : List (Sign α)) :
    trimMarked (s.map (Sign.mapChar g)) = (trimMarked s).map (Sign.mapChar g) := by
  have hblank : Sign.isBlank ∘ Sign.mapChar g = (Sign.isBlank : Sign α → Bool) := by
    funext x
    cases x with
    | char c => exact h c
    | mark a => rfl
  rw [trimMarked, trimMarked, List.rdropWhile, List.rdropWhile, ← List.map_reverse,
    List.dropWhile_map, hblank, List.map_reverse]

end Relmap.Text
