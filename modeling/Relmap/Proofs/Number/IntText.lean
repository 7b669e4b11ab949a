import Relmap.Proofs.Number.Digits

/-!
# The text of an integer reads back

`readInt?_intText`: the decimal text of an integer is read as that integer, and where the integer is
that of a word, as the word (`readWord?_intText`). The text has no blanks, so a reader that trims
sees it whole.
-/

namespace Relmap.Number

variable {s : List Char} {n : Nat}

theorem readNat?_toDigits (n : Nat) : readNat? (Nat.toDigits 10 n) = some n := by
  have digits : (Nat.toDigits 10 n).all isDigit = true :=
    List.all_eq_true.mpr fun _ hc => isDigit_of_mem_toDigits hc
  rw [readNat?, if_pos ⟨Nat.toDigits_ne_nil, digits⟩, digitsValue_toDigits]

/-- Digits alone are a number without a sign. -/
theorem readInt?_of_readNat? (h : readNat? s = some n) : readInt? s = some (n : Int) := by
  have digits : s.all isDigit = true := by
    by_cases hs : s ≠ [] ∧ s.all isDigit = true
    · exact hs.2
    · rw [readNat?, if_neg hs] at h
      cases h
  have unsigned : ∀ c ∈ s.head?, c ≠ '+' ∧ c ≠ '-' := by
    intro c hc
    have hd : isDigit c = true := List.all_eq_true.mp digits c (List.mem_of_head? hc)
    constructor <;> rintro rfl <;> exact absurd hd (by decide)
  unfold readInt?
  split
  · exact absurd rfl (unsigned '+' rfl).1
  · exact absurd rfl (unsigned '-' rfl).2
  · rw [h]
    rfl

/-- The text of an integer is read as the integer. -/
theorem readInt?_intText (n : Int) : readInt? (intText n).toList = some n := by
  cases n with
  | ofNat n =>
    have text : (intText (.ofNat n)).toList = Nat.toDigits 10 n := by simp [intText, natText]
    rw [text]
    exact readInt?_of_readNat? (readNat?_toDigits n)
  | negSucc n =>
    have text : (intText (.negSucc n)).toList = '-' :: Nat.toDigits 10 (n + 1) := by
      simp [intText, natText]
    rw [text, readInt?, readNat?_toDigits]
    rfl

/-- The number of a word fits the word. -/
theorem fits_toInt {bits : Nat} (w : Word bits) : Fits bits w.toInt :=
  ⟨BitVec.le_toInt w, BitVec.toInt_lt⟩

theorem toWord?_toInt {bits : Nat} (w : Word bits) : toWord? bits w.toInt = some w := by
  rw [toWord?, if_pos (fits_toInt w), BitVec.ofInt_toInt]

/-- The text of a word is read as the word. -/
theorem readWord?_intText {bits : Nat} (w : Word bits) :
    readWord? bits (intText w.toInt).toList = some w := by
  rw [readWord?, readInt?_intText, Option.bind_some, toWord?_toInt w]

theorem isBlank_of_mem_toDigits {c : Char} (h : c ∈ Nat.toDigits 10 n) :
    Text.isBlank c = false :=
  isBlank_of_isDigit (isDigit_of_mem_toDigits h)

/-- The text of an integer has digits and perhaps a minus sign. -/
theorem mem_intText {m : Int} {c : Char} (h : c ∈ (intText m).toList) :
    c = '-' ∨ isDigit c = true := by
  cases m with
  | ofNat n => exact .inr (isDigit_of_mem_toDigits (by simpa [intText, natText] using h))
  | negSucc n =>
    have h : c = '-' ∨ c ∈ Nat.toDigits 10 (n + 1) := by simpa [intText, natText] using h
    exact h.imp_right isDigit_of_mem_toDigits

/-- The text of an integer has no blanks. -/
theorem trim_intText (n : Int) : Text.trim (intText n).toList = (intText n).toList := by
  apply Text.trim_of_visible
  intro c hc
  rcases mem_intText hc with rfl | digit
  · rfl
  · exact isBlank_of_isDigit digit

end Relmap.Number
