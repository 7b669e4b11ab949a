import Mathlib.Data.List.DropRight
import Relmap.Text.Blank

/-!
# Trimming

What ends with a visible character is not trimmed at its end, whatever stands before it
(`EndsVisibly.trimEnd_append`). What the program prints, numbers, identifiers and dates, has a
visible character at each end, so a reader that trims first reads the whole of it (`trim_of_ends`).
-/

namespace Relmap.Text

/-- A character of ASCII that leaves a mark is no blank. -/
theorem isBlank_of_graphic {c : Char} (hlo : 0x21 ≤ c.toNat) (hhi : c.toNat ≤ 0x7E) :
    isBlank c = false := by
  simp only [isBlank, blankRanges, List.any_eq_false, Bool.and_eq_true, decide_eq_true_eq]
  simp only [List.mem_cons, List.not_mem_nil, or_false, forall_eq_or_imp, forall_eq]
  omega

/-- A text whose last character is no blank. -/
def EndsVisibly (s : List Char) : Prop := ∃ r c, s = r ++ [c] ∧ isBlank c = false

@[simp] theorem trimEnd_concat_blank {s : List Char} {c : Char} (h : isBlank c = true) :
    trimEnd (s ++ [c]) = trimEnd s := List.rdropWhile_concat_pos isBlank s c h

theorem trimEnd_concat_visible {s : List Char} {c : Char} (h : isBlank c = false) :
    trimEnd (s ++ [c]) = s ++ [c] := List.rdropWhile_concat_neg isBlank s c (by simp [h])

theorem EndsVisibly.append {t : List Char} (h : EndsVisibly t) (s : List Char) :
    EndsVisibly (s ++ t) := by
  obtain ⟨r, c, rfl, hc⟩ := h
  exact ⟨s ++ r, c, (List.append_assoc s r [c]).symm, hc⟩

theorem EndsVisibly.trimEnd_append {t : List Char} (h : EndsVisibly t) (s : List Char) :
    trimEnd (s ++ t) = s ++ t := by
  obtain ⟨r, c, rfl, hc⟩ := h
  rw [← List.append_assoc, trimEnd_concat_visible hc]

/-- A text of visible characters ends visibly. -/
theorem endsVisibly_of_visible {s : List Char} (hs : s ≠ []) (h : ∀ c ∈ s, isBlank c = false) :
    EndsVisibly s :=
  ⟨s.dropLast, s.getLast hs, (List.dropLast_append_getLast hs).symm, h _ (List.getLast_mem hs)⟩

/-- A text is not trimmed if it starts and ends visibly. -/
theorem trim_of_ends {c : Char} {r : List Char} (hstart : isBlank c = false)
    (hend : EndsVisibly (c :: r)) : trim (c :: r) = c :: r := by
  rw [trim, trimStart_of_head hstart]
  exact hend.trimEnd_append []

theorem trim_of_visible {s : List Char} (h : ∀ c ∈ s, isBlank c = false) : trim s = s := by
  cases s with
  | nil => rfl
  | cons c r =>
    exact trim_of_ends (h c List.mem_cons_self) (endsVisibly_of_visible (List.cons_ne_nil c r) h)

end Relmap.Text
